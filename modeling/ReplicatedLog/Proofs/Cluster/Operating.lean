import ReplicatedLog.Proofs.Cluster.Converging

/-!
# Operating a cluster

What can be done with a steady cluster, and that it leaves it steady.

* `Steady.submit`: a command is appended to its log;
* `Steady.stop`: a node is stopped that has handed over everything, and its tally tells so;
* `Steady.start`: a node is started.
-/

namespace ReplicatedLog
namespace Cluster

open Channel

section Sending

variable {w : World} {l i : Nat} {e : Endpoint SharedLog} {log : Log} {topic : String}
  {k : Nat} {line : List TaskId}

/-- The first step of a send on an open channel appends its command. -/
theorem step_send (hlink : w.HasLink l i e) (hs : Runner.Stands e log ⟨topic, 0⟩ k line)
    {id : CommandId} {c : Command} {wait : Log.Wait} {log' : Log}
    (hsend : ({} : Writer).send CommandSchema.json log topic (some 0) id (some c) = (wait, log'))
    (now : Nat) (me : TaskId) :
    (Task.onLink i (.entered (.send id c))).step now me w =
      (.waiting (.onLink i (.sent wait e.channel.interrupts)), w.setLog l log') := by
  have hclient : Client.send now e.client e.channel.partition id c =
      (wait, { e.client with log := log' }) := by
    simp only [Client.send, hs.writer, hs.schema, hs.log, hs.partition, hsend]
  have hcall : Call.step now me e (.entered (.send id c)) =
      (.waiting (.sent wait e.channel.interrupts),
        { e with client := { e.client with log := log' } }) := by
    simp only [Call.step, Call.enter, hs.isOpen, hclient, Bool.false_eq_true, if_false]
  rw [hlink.step_waiting hcall, hlink.set_log]

/-- A send whose acknowledgment is there comes to its end. -/
theorem step_acknowledged (hlink : w.HasLink l i e) {wait : Log.Wait} {p : Position}
    (houtcome : e.client.log.outcome wait = some (.ok p)) (interrupts now : Nat) (me : TaskId) :
    (Task.onLink i (.sent wait interrupts)).ready now me w = true ∧
      (Task.onLink i (.sent wait interrupts)).step now me w = (.done (.ok (.position p)), w) := by
  constructor
  · rw [hlink.ready]
    simp only [Call.ready, Client.outcome, houtcome, Option.isSome_some, Bool.true_or]
  · have hcall : Call.step now me e (.sent wait interrupts) = (.done (.ok (.position p)), e) := by
      simp only [Call.step, Call.awaitAck, Client.outcome, houtcome]
    rw [hlink.step_done hcall, hlink.set_self]
    rfl

end Sending

/-- No time has passed, and there is as much patience left as before. -/
structure AtOnce (s s' : Simulation) : Prop where
  now : s'.now = s.now
  limit : s'.limit = s.limit
  patience : s'.patience = s.patience

theorem AtOnce.trans {s s' s'' : Simulation} (h : AtOnce s s') (h' : AtOnce s' s'') :
    AtOnce s s'' :=
  ⟨h'.now.trans h.now, h'.limit.trans h.limit, h'.patience.trans h.patience⟩

section Appending

variable {settings : Settings} {l : Nat} {clusters : List Cluster} {log log' : Log}
  {qs : List QueuedCommand} {limit limit' low : Nat} {crew : List Mate} {s : Simulation}
  {Allows Allows' : TaskId → Runner.State SharedLog Workbench → Prop}
  {others : List (TaskId × Task)}

/-- The log of a crew may be another one. -/
theorem Crewed.setLog (h : Crewed l log clusters Allows crew others s) (log' : Log)
    (hall : ∀ me st, Allows me st → Allows' me (st.withLog log')) :
    Crewed l log' clusters Allows' crew others { s with world := s.world.setLog l log' } := by
  refine ⟨?_, ?_, h.clusters, h.queue, h.tasks, h.fresh, h.apart, fun m hm => ?_⟩
  · change l < (s.world.logs.set l log').length
    rw [List.length_set]
    exact h.there
  · exact (World.log_setLog s.world l l log').trans (if_pos ⟨rfl, h.there⟩)
  · obtain ⟨st, hmans, hst⟩ := h.mans m hm
    exact ⟨_, hmans.setLog log', hall _ _ hst⟩

/-- A steady cluster may have more commands to read, all of whose replays then take longer. -/
theorem Steady.setLog (h : Steady settings l clusters log qs limit low crew s)
    (more : List QueuedCommand) (hsuits : Suits settings log' (qs ++ more))
    (happends : log'.appends = log.appends + more.length) (hlimit : limit ≤ limit')
    (hsoon : more ≠ [] → s.now + Runner.patience settings.timing true ≤ limit')
    (hroom : 9 * (qs ++ more).length + crew.length + 40 ≤ s.patience) :
    Steady settings l clusters log' (qs ++ more) limit' low crew
      { s with world := s.world.setLog l log' } := by
  refine ⟨hsuits, h.crewed.setLog log' fun me st hst => ?_, hroom⟩
  obtain ⟨n, hn, hidles⟩ := hst
  exact ⟨n, hn, hidles.withLog happends hlimit hsoon⟩

/-- Something is done to the log of a steady cluster that is no append. -/
theorem Steady.changeLog (h : Steady settings l clusters log qs limit low crew s) (f : Log → Log)
    (hcarries : (f log).Carries ⟨settings.topic, commandPartition⟩ qs)
    (happends : (f log).appends = log.appends) (hlimit : limit ≤ limit') :
    Steady settings l clusters (f log) qs limit' low crew
      { s with world := s.world.setLog l (f (s.world.log l)) } := by
  have hsuits : Suits settings (f log) (qs ++ []) := by
    rw [List.append_nil]
    exact ⟨hcarries, h.suits.smooth, h.suits.patient⟩
  have hset := h.setLog [] hsuits happends hlimit nofun (by
    rw [List.append_nil]
    exact h.room)
  rw [h.crewed.log]
  rwa [List.append_nil] at hset

theorem Steady.newTask (h : Steady settings l clusters log qs limit low crew s) :
    Steady settings l clusters log qs limit low crew s.newTask.2 :=
  ⟨h.suits, h.crewed.newTask, h.room⟩

/-- A command that is submitted through a node is the last one of the log. -/
theorem Steady.submit (h : Steady settings l clusters log qs limit low crew s) {c : Nat}
    (hc : clusters[c]? = some ⟨l, settings, crew.map Mate.node⟩) {i : Nat} {m : Mate}
    (hm : crew[i]? = some m) (hholding : log.isHolding = false) (id : CommandId)
    (command : Command) (hqs : Runner.Smooth (qs ++ [⟨id, command, some qs.length⟩]))
    (hroom : 9 * (qs.length + 1) + crew.length + 40 ≤ s.patience)
    (hlimit : limit ≤ s.now + Runner.patience settings.timing true) :
    ∃ log' s', (submit c i id command).run.run s =
        (.ok (.position ⟨settings.topic, 0, qs.length⟩), s') ∧ log'.isHolding = false ∧
      Steady settings l clusters log' (qs ++ [⟨id, command, some qs.length⟩])
        (s.now + Runner.patience settings.timing true) low crew s' ∧
      AtOnce s s' := by
  have hnode : (crew.map Mate.node)[i]? = some m.node := by
    rw [List.getElem?_map, hm]
    rfl
  obtain ⟨st, hmans, ⟨n, -, hidles⟩⟩ := h.crewed.mans m (List.mem_of_getElem? hm)
  obtain ⟨k, line, hrunning⟩ := hidles.running
  obtain ⟨log', hsend, hcarries, happends, hheld, houtcome⟩ := h.suits.carries.send id command
  have hstep := step_send hmans.link hrunning.place hsend
  rw [hholding] at hheld houtcome
  -- the append, and then its acknowledgment, which is there at once
  obtain ⟨hready, hacked⟩ := step_acknowledged (hmans.link.setLog log') houtcome
    st.endpoint.channel.interrupts s.now s.nextTask
  obtain ⟨patience, hpatience⟩ : ∃ patience, s.patience = patience + 2 :=
    ⟨s.patience - 2, by omega⟩
  have hrun : Simulation.runWithin s.nextTask (patience + 2)
      (.onLink m.node.link (.entered (.send id command))) s.newTask.2 =
        (.ok (.position ⟨settings.topic, 0, qs.length⟩),
          { s.newTask.2 with world := s.world.setLog l log' }) :=
    (Simulation.runWithin_waiting (s := s.newTask.2) (hmans.link.ready _ _ _) (hstep _ _) _).trans
      (Simulation.runWithin_done hready hacked _)
  have hsteady := h.newTask.setLog [⟨id, command, some qs.length⟩]
    ⟨hcarries, hqs, h.suits.patient⟩ happends hlimit (fun _ => Nat.le_refl _) (by
      rw [List.length_append, List.length_singleton]
      exact hroom)
  refine ⟨log', _, ?_, hheld, hsteady, ⟨rfl, rfl, rfl⟩⟩
  unfold Cluster.submit
  rw [Sim.run_bind_ok (run_node_of_some (h.crewed.clusters ▸ hc) hnode), Sim.run_tryCatch,
    Sim.run_await, hpatience, hrun]
  rfl

end Appending

section Stopping

variable {w : World} {l i : Nat} {e : Endpoint SharedLog} {log : Log} {s : Simulation}

/-- An open channel whose reading handle nobody uses is shut down at once. -/
theorem run_shutDown (hlink : s.world.HasLink l i e) (hv : Runner.Vacant e log)
    (hp : 4 ≤ s.patience) (j : Nat) :
    ∃ w, (Sim.await (.onLink i (.entered .shutDown))).run.run s =
        (.ok .nothing, { s.newTask.2 with world := w }) ∧
      s.world.Changes w l i j ∧ w.log l = log := by
  let me := s.nextTask
  -- it joins the line, closes the reading handle and then the appending one
  let e₁ : Endpoint SharedLog :=
    { e with channel := { e.channel with isShutDown := true }.joinLine me }
  let e₂ : Endpoint SharedLog := { e₁ with client := e₁.client.close .reader }.leave me
  let e₃ : Endpoint SharedLog := { e₂ with client := e₂.client.close .writer }
  have hfirst : e₁.channel.hasReader me = true := by
    simp [e₁, Channel.hasReader, Channel.joinLine, hv.line]
  have hready : Call.ready s.now me e₁ (.inLine .close) = true := hfirst
  have henter : Call.step s.now me e (.entered .shutDown) = (.waiting (.inLine .close), e₁) := by
    simp only [Call.step, Call.enter, hv.isOpen, Bool.false_eq_true, if_false]
    rfl
  have hclose : Call.step s.now me e₁ (.inLine .close) = (.waiting (.closing .writer ()), e₂) := by
    simp only [Call.step, hfirst, if_true]
    rfl
  have hend : Call.step s.now me e₂ (.closing .writer ()) = (.done (.ok .done), e₃) := rfl
  have hlink₁ : ((World.link i).set s.world e₁).HasLink l i e₁ := hlink.set rfl
  have hlink₂ : ((World.link i).set ((World.link i).set s.world e₁) e₂).HasLink l i e₂ :=
    hlink₁.set rfl
  have hlink₃ : ((World.link i).set ((World.link i).set ((World.link i).set s.world e₁) e₂)
      e₃).HasLink l i e₃ := hlink₂.set rfl
  obtain ⟨patience, hpatience⟩ : ∃ patience, s.patience = patience + 3 :=
    ⟨s.patience - 3, by omega⟩
  refine ⟨_, ?_, (hlink.set_changes e₁ j).trans
    ((hlink₁.set_changes e₂ j).trans (hlink₂.set_changes e₃ j)), hlink₃.log.trans hv.log⟩
  rw [Sim.run_await, hpatience]
  refine (Simulation.runWithin_waiting (s := s.newTask.2) (hlink.ready _ _ _)
    (hlink.step_waiting henter) _).trans ?_
  refine (Simulation.runWithin_waiting ((hlink₁.ready _ _ _).trans hready)
    (hlink₁.step_waiting hclose) _).trans ?_
  exact Simulation.runWithin_done (hlink₂.ready _ _ _) (hlink₂.step_done hend) _

/-- A tally that counts so many commands, none of which has failed. -/
structure Told (n : Nat) (t : Tally) : Prop where
  failed : t.failed = 0
  total : t.replayed + t.executed = n
  lastOffset : t.lastOffset = lastBelow n

variable {settings : Settings} {clusters : List Cluster} {qs : List QueuedCommand} {limit : Nat}
  {crew : List Mate} {m : Mate}

/-- A node is stopped that has handed over everything. -/
theorem Steady.stop
    (h : Steady settings l clusters log qs limit qs.length (m :: crew) s) :
    ∃ t s', m.node.stop.run.run s = (.ok t, s') ∧ Told qs.length t ∧
      Steady settings l clusters log qs limit qs.length crew s' ∧
      AtOnce s s' := by
  have hroom := h.room
  rw [List.length_cons] at hroom
  obtain ⟨st, hmans, ⟨n, hn, hidles⟩⟩ := h.crewed.mans m List.mem_cons_self
  obtain ⟨k, line, hrunning⟩ := hidles.running
  obtain rfl : n = qs.length := Nat.le_antisymm hrunning.bound hn
  have hapart := h.crewed.apart_first
  -- the runner is asked to stop, and the channel is interrupted
  obtain ⟨hmans₁, hchanges₁, hlog₁⟩ := hmans.stopPost s.now
  obtain ⟨c, st', hc, hgoes, hready, hended⟩ := hidles.asked h.suits.carries s.now
  have hcrew₁ := (h.crewed.dismiss.elsewhere hchanges₁ (hlog₁.trans h.crewed.log) hapart).newTask
  -- it ends while the others settle
  have hrestful : Restful s.now s.patience log (Idling settings log qs s.now limit qs.length) :=
    h.suits.restful (by omega) _ _ _
  have hmany : crew.length + 1 ≤ s.patience := by omega
  have hlong : c < s.patience := by omega
  obtain ⟨world, queue, hsettled, hcrew₂, hmans₂⟩ := hcrew₁.settle_leaver hrestful hmany hapart
    hmans₁ hgoes hlong hready hended.result hended.vacant.log
  have hwaits : (Task.endOf m.node.post).ready s.now s.nextTask
      (s.world.stopPost s.now m.node.post) = false := by
    rw [hmans₁.ready_endOf]
    exact congrArg Option.isSome hidles.result?
  let s₁ : Simulation := { s with world := s.world.stopPost s.now m.node.post }
  let s₂ : Simulation := { s₁.newTask.2 with world, queue }
  obtain ⟨patience, hpatience⟩ : ∃ patience, s.patience = patience + 2 :=
    ⟨s.patience - 2, by omega⟩
  have hend : (Sim.await (.endOf m.node.post)).run.run s₁ = (.ok (.tally st.runner.tally), s₂) := by
    have hsettled' : s₁.newTask.2.settle = s₂ := hsettled
    have hgone : (Task.endOf m.node.post).ready s₁.newTask.2.settle.now s.nextTask
        s₁.newTask.2.settle.world = true := by
      rw [hsettled']
      exact hmans₂.ready_endOf.trans (congrArg Option.isSome hended.result)
    rw [Sim.run_await, show s₁.patience = patience + 2 from hpatience]
    refine (Simulation.runWithin_settled hwaits hgone _).trans ?_
    rw [hsettled']
    exact Simulation.runWithin_done (hsettled' ▸ hgone) (hmans₂.step_endOf hended.result) _
  -- the channel of a runner that has ended is shut down
  obtain ⟨w, hshut, hchanges₃, hlog₃⟩ := run_shutDown (s := s₂) hmans₂.link hended.vacant
    (by change 4 ≤ s.patience; omega) m.node.post
  have hcrew₃ := hcrew₂.newTask.elsewhere hchanges₃ hlog₃ hapart
  have hhandled := hrunning.handled
  refine ⟨st.runner.tally, { s₂.newTask.2 with world := w }, ?_,
    ⟨hhandled.failed, hhandled.total, hhandled.lastOffset⟩,
    ⟨h.suits, hcrew₃.imp fun _ _ _ _ hst => hst.1, by change _ ≤ s.patience; omega⟩,
    ⟨rfl, rfl, rfl⟩⟩
  unfold Node.stop
  rw [Sim.run_bind_ok (Sim.run_now s), Sim.run_bind_ok (Sim.run_change _ s),
    Sim.run_bind_ok (Sim.run_tryCatch_ok hend _), Sim.run_bind_ok hshut]
  rfl

/-- The nodes are stopped one after the other. -/
theorem Steady.stopAll
    (h : Steady settings l clusters log qs limit qs.length crew s) :
    ∃ tallies s', ((crew.map Mate.node).mapM fun (n : Node) =>
        (do return (n.name, ← n.stop) : Sim (String × Tally))).run.run s = (.ok tallies, s') ∧
      tallies.map Prod.fst = crew.map (·.node.name) ∧ ∀ e ∈ tallies, Told qs.length e.2 := by
  induction crew generalizing s with
  | nil => exact ⟨[], s, rfl, rfl, by simp⟩
  | cons m crew ih =>
      obtain ⟨t, s₁, hstop, htold, h₁, -⟩ := h.stop
      obtain ⟨tallies, s₂, hrest, hnames, htolds⟩ := ih h₁
      refine ⟨(m.node.name, t) :: tallies, s₂, ?_, by simp [hnames], fun e he => ?_⟩
      · have hone : (do return (m.node.name, ← m.node.stop) : Sim (String × Tally)).run.run s =
            (.ok (m.node.name, t), s₁) := by
          rw [Sim.run_bind_ok hstop]
          rfl
        rw [List.map_cons, List.mapM_cons, Sim.run_bind_ok hone, Sim.run_bind_ok hrest]
        rfl
      · rcases List.mem_cons.1 he with rfl | he
        · exact htold
        · exact htolds e he

end Stopping

section Starting

variable {settings : Settings} {l : Nat} {clusters : List Cluster} {log : Log}
  {qs : List QueuedCommand} {limit low : Nat} {crew crew' : List Mate} {s : Simulation}
  {Allows : TaskId → Runner.State SharedLog Workbench → Prop} {others : List (TaskId × Task)}

/-- The order of a crew does not matter. -/
theorem Crewed.perm (h : Crewed l log clusters Allows crew others s) (hcrew : crew.Perm crew') :
    Crewed l log clusters Allows crew' others s := by
  refine ⟨h.there, h.log, h.clusters, h.queue.trans ((hcrew.map _).append_left _), h.tasks,
    h.fresh, (hcrew.pairwise_iff fun happart => ⟨happart.link.symm, happart.post.symm⟩).1 h.apart,
    fun m hm => h.mans m (hcrew.mem_iff.2 hm)⟩

theorem Steady.perm (h : Steady settings l clusters log qs limit low crew s)
    (hcrew : crew.Perm crew') : Steady settings l clusters log qs limit low crew' s :=
  ⟨h.suits, h.crewed.perm hcrew, hcrew.length_eq ▸ h.room⟩

/-- Which clusters there are does not matter to a crew. -/
theorem Steady.withClusters (h : Steady settings l clusters log qs limit low crew s)
    (clusters' : List Cluster) :
    Steady settings l clusters' log qs limit low crew
      { s with world := { s.world with clusters := clusters' } } := by
  refine ⟨h.suits, ⟨h.crewed.there, h.crewed.log, rfl, h.crewed.queue, h.crewed.tasks,
    h.crewed.fresh, h.crewed.apart, fun m hm => ?_⟩, h.room⟩
  obtain ⟨st, hmans, hst⟩ := h.crewed.mans m hm
  exact ⟨st, hmans.of_eq rfl rfl rfl, hst⟩

/-- A runner that has just been set to work. -/
def fresh (log : Log) (settings : Settings) : Runner.State SharedLog Workbench :=
  ⟨.opened log .json settings.topic, {}, { timing := settings.timing }⟩

/-- The mate that is there when a node has been started. -/
def mateOf (s : Simulation) (name : String) : Mate :=
  ⟨⟨name, s.world.links.length, s.world.posts.length⟩, s.nextTask⟩

/-- A runner that has just been set to work is about to replay the log. -/
theorem fresh_idles {now : Nat} (hn : now + Runner.patience settings.timing true ≤ limit)
    (me : TaskId) :
    Idling settings log qs now limit 0 me (fresh log settings) := by
  have hstands : Runner.Stands (fresh log settings).endpoint log
      ⟨settings.topic, commandPartition⟩ 0 [] :=
    ⟨rfl, rfl, ⟨rfl, rfl, rfl⟩, rfl, rfl, rfl, rfl⟩
  have hhandled : Runner.Handled qs 0 (fresh log settings).executor
      (fresh log settings).runner.tally :=
    ⟨⟨rfl, rfl⟩, rfl, rfl, rfl, rfl, rfl⟩
  have hrunning : Runner.Running settings.timing log ⟨settings.topic, commandPartition⟩ qs 0 0 []
      (fresh log settings) :=
    ⟨hstands, hhandled, rfl, rfl, Nat.zero_le _, Nat.zero_le _⟩
  have hphase : (fresh log settings).runner.phase = Runner.again true := rfl
  exact ⟨0, Nat.le_refl 0, .begins hrunning hphase rfl fun _ => hn⟩

/-- A node that is started joins the crew. -/
theorem Steady.start (h : Steady settings l clusters log qs limit low crew s) (name : String)
    (hlimit : s.now + Runner.patience settings.timing true ≤ limit)
    (hroom : 9 * qs.length + (crew.length + 1) + 40 ≤ s.patience) :
    ∃ s', (Node.start l settings name).run.run s = (.ok (mateOf s name).node, s') ∧
      Steady settings l clusters log qs limit 0 (mateOf s name :: crew) s' ∧
      AtOnce s s' ∧ s'.world.results = s.world.results := by
  have hnew : (s.world.withRunner l settings).Mans l (mateOf s name).node (fresh log settings) := by
    refine ⟨⟨h.crewed.there, h.crewed.log, ?_⟩, ?_⟩
    · exact List.getElem?_concat_length
    · exact List.getElem?_concat_length
  have hqueue : (s.queue ++ [(mateOf s name).entry]).Perm
      ((mateOf s name :: crew).map Mate.entry) :=
    (List.perm_append_singleton _ _).trans (h.crewed.queue.cons _)
  refine ⟨_, Node.run_start l settings name s, ⟨h.suits, ⟨h.crewed.there, h.crewed.log,
    h.crewed.clusters, hqueue, ?_, fun e he => ?_, ?_, fun m hm => ?_⟩, ?_⟩, ⟨rfl, rfl, rfl⟩, rfl⟩
  · refine ((List.perm_append_singleton _ _).map Prod.fst).nodup_iff.2 ?_
    refine List.nodup_cons.2 ⟨fun hmem => ?_, h.crewed.tasks⟩
    obtain ⟨e, he, heq⟩ := List.mem_map.1 hmem
    exact Nat.ne_of_lt (h.crewed.fresh e he) heq
  · rcases List.mem_append.1 he with he | he
    · exact Nat.lt_succ_of_lt (h.crewed.fresh e he)
    · rw [List.mem_singleton.1 he]
      exact Nat.lt_succ_self _
  · refine List.pairwise_cons.2 ⟨fun m hm => ?_, h.crewed.apart⟩
    obtain ⟨st, hmans, -⟩ := h.crewed.mans m hm
    obtain ⟨hlink, -⟩ := List.getElem?_eq_some_iff.1 hmans.link.link
    obtain ⟨hpost, -⟩ := List.getElem?_eq_some_iff.1 hmans.post
    exact ⟨Nat.ne_of_gt hlink, Nat.ne_of_gt hpost⟩
  · rcases List.mem_cons.1 hm with rfl | hm
    · exact ⟨_, hnew, fresh_idles hlimit _⟩
    · obtain ⟨st, hmans, hst⟩ := h.crewed.mans m hm
      refine ⟨st, ⟨⟨hmans.link.there, hmans.link.log, ?_⟩, ?_⟩,
        hst.mono (Nat.zero_le _) (Nat.le_refl _)⟩
      · obtain ⟨hlink, -⟩ := List.getElem?_eq_some_iff.1 hmans.link.link
        exact (List.getElem?_append_left hlink).trans hmans.link.link
      · obtain ⟨hpost, -⟩ := List.getElem?_eq_some_iff.1 hmans.post
        exact (List.getElem?_append_left hpost).trans hmans.post
  · rw [List.length_cons]
    exact hroom

/-- Nodes that are started one after the other make a crew. -/
theorem Steady.startAll (h : Steady settings l clusters log qs limit low crew s)
    (name : Nat → String) (is : List Nat)
    (hlimit : s.now + Runner.patience settings.timing true ≤ limit)
    (hroom : 9 * qs.length + (is.length + crew.length) + 40 ≤ s.patience) :
    ∃ mates s', (is.mapM fun i => Node.start l settings (name i)).run.run s =
        (.ok (mates.map Mate.node), s') ∧
      mates.map (·.node.name) = is.map name ∧
      Steady settings l clusters log qs limit 0 (mates ++ crew) s' ∧
      AtOnce s s' ∧ s'.world.results = s.world.results := by
  induction is generalizing low crew s with
  | nil =>
      exact ⟨[], s, rfl, rfl, h.mono (Nat.zero_le _) (Nat.le_refl _), ⟨rfl, rfl, rfl⟩, rfl⟩
  | cons i is ih =>
      rw [List.length_cons] at hroom
      obtain ⟨s₁, hstart, h₁, honce₁, hresults₁⟩ := h.start (name i) hlimit (by omega)
      obtain ⟨mates, s₂, hrest, hnames, h₂, honce₂, hresults₂⟩ :=
        ih h₁ (honce₁.now ▸ hlimit) (by
          rw [List.length_cons, honce₁.patience]
          omega)
      refine ⟨mateOf s (name i) :: mates, s₂, ?_, by simp [hnames, mateOf],
        h₂.perm List.perm_middle, honce₁.trans honce₂, hresults₂.trans hresults₁⟩
      rw [List.mapM_cons, Sim.run_bind_ok hstart, Sim.run_bind_ok hrest]
      rfl

end Starting

section Restarting

variable {settings : Settings} {l : Nat} {clusters : List Cluster} {log : Log}
  {qs : List QueuedCommand} {limit low : Nat} {crew : List Mate} {s : Simulation} {m : Mate}
  {c : Nat}

/-- The nodes of a cluster may be replaced. -/
theorem Steady.setNodes (h : Steady settings l clusters log qs limit low crew s)
    {nodes : List Node} (hc : clusters[c]? = some ⟨l, settings, nodes⟩)
    (f : List Node → List Node) :
    ∃ clusters' s', (setNodes c f).run.run s = (.ok (), s') ∧
      clusters'[c]? = some ⟨l, settings, f nodes⟩ ∧
      Steady settings l clusters' log qs limit low crew s' ∧
      AtOnce s s' := by
  refine ⟨_, _, Sim.run_change _ s, ?_, h.withClusters _, ⟨rfl, rfl, rfl⟩⟩
  rw [h.crewed.clusters, List.getElem?_modify, hc]
  simp

/-- The first node of a cluster is replaced with a new one, which has to replay the log. -/
theorem Steady.restart (h : Steady settings l clusters log qs limit qs.length (m :: crew) s)
    (hc : clusters[c]? = some ⟨l, settings, (m :: crew).map Mate.node⟩)
    (hlimit : limit ≤ s.now + Runner.patience settings.timing true) :
    ∃ t m' clusters' s', (restart c 0).run.run s = (.ok t, s') ∧
      m'.node.name = m.node.name ∧
      clusters'[c]? = some ⟨l, settings, (m' :: crew).map Mate.node⟩ ∧
      Steady settings l clusters' log qs (s.now + Runner.patience settings.timing true) 0
        (m' :: crew) s' ∧
      AtOnce s s' := by
  have hfound : (node c 0).run.run s = (.ok m.node, s) :=
    run_node_of_some (h.crewed.clusters ▸ hc) rfl
  obtain ⟨clusters₁, s₁, hleave, hc₁, h₁, honce₁⟩ := h.setNodes hc (·.eraseIdx 0)
  obtain ⟨t, s₂, hstop, -, h₂, honce₂⟩ := h₁.stop
  have honce := honce₁.trans honce₂
  have hroom := h.room
  rw [List.length_cons] at hroom
  obtain ⟨s₃, hstart, h₃, honce₃, -⟩ := (h₂.mono (Nat.le_refl _) hlimit).start m.node.name
    (Nat.le_of_eq (by rw [honce.now])) (by
      rw [honce.patience]
      omega)
  obtain ⟨clusters₄, s₄, hjoin, hc₄, h₄, honce₄⟩ :=
    h₃.setNodes hc₁ (·.insertIdx 0 (mateOf s₂ m.node.name).node)
  refine ⟨t, mateOf s₂ m.node.name, clusters₄, s₄, ?_, rfl, hc₄, h₄,
    honce.trans (honce₃.trans honce₄)⟩
  unfold Cluster.restart
  rw [Sim.run_bind_ok hfound, Sim.run_bind_ok hleave, Sim.run_bind_ok hstop,
    Sim.run_bind_ok (run_find_of_some (h₂.crewed.clusters ▸ hc₁)), Sim.run_bind_ok hstart,
    Sim.run_bind_ok hjoin]
  rfl

end Restarting

end Cluster
end ReplicatedLog
