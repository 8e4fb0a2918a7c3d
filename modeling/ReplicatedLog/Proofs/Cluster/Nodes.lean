import Mathlib.Data.List.InsertIdx
import ReplicatedLog.Cluster.Basic
import ReplicatedLog.Proofs.Simulation.Clock

/-!
# The nodes of a cluster

Each node of a cluster has a link and a post of its own on the log of the cluster,
and its engine is where the log has brought it.

* `Node.On`: the link and the post of a node are there, on the topic of the cluster;
* `On.engine_eq`: the engine of a node in a sound world is in the state after all
  commands up to the offset it has come to;
* `Cluster.Stands`: a cluster with its nodes in a sound simulation, `start_stands` and
  `Stands.keeps`;
* `Stands.converged`: what a cluster converges on.
-/

namespace ReplicatedLog

namespace World

section Opening

/-- A link that has just been opened. -/
def newLink (log : Nat) (settings : Channel.Settings) : Link where
  log := log
  schema := .json
  reader := (Endpoint.opened {} .json settings.topic).client.reader
  channel := (Endpoint.opened {} .json settings.topic).channel

/-- The world after a runner has been set to work on a new link. -/
def withRunner (w : World) (log : Nat) (settings : Channel.Settings) : World :=
  { w with
    links := w.links ++ [newLink log settings]
    posts := w.posts ++ [.link w.links.length {} { timing := settings.timing }] }

variable {w : World} {log : Nat} {settings : Channel.Settings}

theorem links_withRunner_of_lt {i : Nat} (h : i < w.links.length) :
    (w.withRunner log settings).links.getD i default = w.links.getD i default := by
  simp [withRunner, List.getD_eq_getElem?_getD, List.getElem?_append_left h]

theorem links_withRunner_length (w : World) (log : Nat) (settings : Channel.Settings) :
    (w.withRunner log settings).links.getD w.links.length default = newLink log settings := by
  simp [withRunner]

theorem get_withRunner_of_lt {i : Nat} (h : i < w.links.length) :
    (link i).get (w.withRunner log settings) = (link i).get w := by
  simp only [link, links_withRunner_of_lt h]
  rfl

/-- The channel of the new link has just been made. -/
theorem get_withRunner_length (w : World) (log : Nat) (settings : Channel.Settings) :
    (link w.links.length).get (w.withRunner log settings) =
      .opened (w.log log) .json settings.topic := by
  simp only [link, links_withRunner_length]
  rfl

/-- A post of the world with a new runner is the new one, or was there before. -/
theorem hasPost_withRunner {j i : Nat} {b : Workbench} {r : Runner SharedLog}
    (h : (w.withRunner log settings).HasPost j i b r) :
    (j = w.posts.length ∧ i = w.links.length ∧ b = {} ∧ r = { timing := settings.timing }) ∨
      w.HasPost j i b r := by
  unfold HasPost withRunner at h
  dsimp only at h
  rcases Nat.lt_trichotomy j w.posts.length with hlt | heq | hgt
  · rw [List.getElem?_append_left hlt] at h
    exact Or.inr h
  · rw [heq, List.getElem?_concat_length] at h
    cases h
    exact Or.inl ⟨heq, rfl, rfl, rfl⟩
  · rw [List.getElem?_eq_none (by simp; omega)] at h
    cases h

/-- A new runner on a link of its own keeps the world. -/
theorem keeps_withRunner (settings : Channel.Settings) (hlog : log < w.logs.length) :
    w.Keeps (w.withRunner log settings) := by
  intro hs
  have hf : w.Follows (w.withRunner log settings) := by
    refine ⟨rfl, fun _ => .refl _, by simp [withRunner], fun i hi => ?_, fun i hi => ?_,
      fun j i b r hj => ⟨b, r, ?_⟩, rfl⟩
    · rw [links_withRunner_of_lt hi]
    · rw [get_withRunner_of_lt hi]
      exact .refl _
    · obtain ⟨hlt, -⟩ := List.getElem?_eq_some_iff.1 hj
      change (w.posts ++ _)[j]? = _
      rw [List.getElem?_append_left hlt]
      exact hj
  have hfree : ∀ {j b r}, ¬ w.HasPost j w.links.length b r := fun hj =>
    Nat.lt_irrefl _ (hs.atWork _ _ _ _ hj).link
  refine ⟨⟨fun j i b r hj => ?_, fun j j' i b r b' r' hj hj' => ?_⟩, hf⟩
  · rcases hasPost_withRunner hj with ⟨-, rfl, rfl, rfl⟩ | hold
    · refine ⟨by simp [withRunner], ?_, ⟨rfl, rfl⟩, [], rfl, rfl, ?_⟩
      · rw [links_withRunner_length]
        exact hlog
      · rw [get_withRunner_length]
        exact (Endpoint.make_readerAt (Endpoint.make_opened 0 _ _ _)).2
    · refine (hs.atWork j i b r hold).keeps hf ?_
      rw [get_withRunner_of_lt (hs.atWork j i b r hold).link]
      exact .refl _
  · rcases hasPost_withRunner hj with ⟨rfl, rfl, -⟩ | hold
    · rcases hasPost_withRunner hj' with ⟨rfl, -⟩ | hold'
      · rfl
      · exact absurd hold' hfree
    · rcases hasPost_withRunner hj' with ⟨-, rfl, -⟩ | hold'
      · exact absurd hold hfree
      · exact hs.apart j j' i b r b' r' hold hold'

end Opening

end World

namespace Node

section Places

/-- The link and the post of a node are there, on a topic of one of the logs. -/
structure On (w : World) (log : Nat) (topic : String) (n : Node) : Prop where
  post : ∃ b r, w.HasPost n.post n.link b r
  link : n.link < w.links.length
  log : (w.links.getD n.link default).log = log
  schema : ((World.link n.link).get w).client.schema = .json
  partition : ((World.link n.link).get w).channel.partition = ⟨topic, Channel.commandPartition⟩

variable {w w' : World} {log : Nat} {topic : String} {n : Node}

theorem On.follows (h : n.On w log topic) (hf : w.Follows w') : n.On w' log topic := by
  obtain ⟨b, r, hpost⟩ := h.post
  have hlink := hf.link n.link h.link
  exact ⟨hf.posts _ _ b r hpost, Nat.lt_of_lt_of_le h.link hf.links,
    (hf.onLog n.link h.link).trans h.log, hlink.schema.trans h.schema,
    hlink.partition.trans h.partition⟩

theorem On.withClusters (h : n.On w log topic) (clusters : List Cluster) :
    n.On { w with clusters } log topic :=
  ⟨h.post, h.link, h.log, h.schema, h.partition⟩

/-- The engine of a node has executed what the first entries of the log tell. -/
theorem On.executed (h : n.On w log topic) (hs : w.Sound) :
    ∃ m commands, (w.log log).Tells .json ⟨topic, Channel.commandPartition⟩ m commands ∧
      n.engine w = Engine.run {} commands := by
  obtain ⟨b, r, hpost⟩ := h.post
  obtain ⟨handed, hengine, hdelivers⟩ := (hs.atWork _ _ _ _ hpost).state
  obtain ⟨m, ht⟩ := hdelivers.tells
  refine ⟨m, handed, ?_, ?_⟩
  · unfold Endpoint.Tells at ht
    rw [h.schema, h.partition, show ((World.link n.link).get w).client.log =
      w.log (w.links.getD n.link default).log from rfl, h.log] at ht
    exact ht
  · unfold Node.engine
    have hfound : w.posts[n.post]? = _ := hpost
    rw [hfound]
    exact hengine

/-- The engine of a node is in the state after all commands up to the offset it has come to. -/
theorem On.engine_eq (h : n.On w log topic) (hs : w.Sound) :
    n.engine w = Engine.through .json
      ((w.log log).written ⟨topic, Channel.commandPartition⟩) (n.engine w).appliedThrough := by
  obtain ⟨m, commands, ht, heq⟩ := h.executed hs
  rw [heq]
  exact ht.through

end Places

section Starting

variable {log : Nat} {settings : Channel.Settings} {s : Simulation}

/-- A node that is started has a runner at work on a new link. -/
theorem run_start (log : Nat) (settings : Channel.Settings) (name : String) (s : Simulation) :
    (start log settings name).run.run s =
      (.ok ⟨name, s.world.links.length, s.world.posts.length⟩,
        { s with
          world := s.world.withRunner log settings
          queue := s.queue ++ [(s.nextTask, .work s.world.posts.length)]
          nextTask := s.nextTask + 1 }) := rfl

/-- A new node keeps the simulation sound, and is on the topic. -/
theorem start_on (settings : Channel.Settings) (hlog : log < s.world.logs.length)
    (name : String) (hs : s.Sound) :
    ∃ n s', (start log settings name).run.run s = (.ok n, s') ∧ s'.Sound ∧
      s.world.Follows s'.world ∧ n.On s'.world log settings.topic := by
  obtain ⟨hw, hf⟩ := World.keeps_withRunner settings hlog hs.world
  refine ⟨_, _, run_start log settings name s, ⟨hw, fun entry hentry => ?_⟩, hf, ?_⟩
  · rcases List.mem_append.1 hentry with hold | hnew
    · exact hs.queue entry hold
    · rw [List.mem_singleton] at hnew
      rw [hnew]
      trivial
  · have hget := World.get_withRunner_length s.world log settings
    refine ⟨⟨{}, { timing := settings.timing }, by simp [World.HasPost, World.withRunner]⟩,
      by simp [World.withRunner], ?_, ?_, ?_⟩
    · rw [World.links_withRunner_length]
      rfl
    · rw [hget]
      rfl
    · rw [hget]
      rfl

/-- Nodes that are started one after the other keep the simulation sound, and are on the topic. -/
theorem startAll_on (settings : Channel.Settings) (name : Nat → String) (is : List Nat)
    (hlog : log < s.world.logs.length) (hs : s.Sound) :
    ∃ nodes s', (is.mapM fun i => start log settings (name i)).run.run s = (.ok nodes, s') ∧
      s'.Sound ∧ s.world.Follows s'.world ∧ nodes.length = is.length ∧
        ∀ n ∈ nodes, n.On s'.world log settings.topic := by
  induction is generalizing s with
  | nil => exact ⟨[], s, rfl, hs, .refl _, rfl, by simp⟩
  | cons i is ih =>
      obtain ⟨n, s', hrun, hs', hf, hon⟩ := start_on settings hlog (name i) hs
      have hlog' : log < s'.world.logs.length := by
        rw [hf.logs]
        exact hlog
      obtain ⟨nodes, s'', hrun', hs'', hf', hlen, hons⟩ := ih hlog' hs'
      refine ⟨n :: nodes, s'', ?_, hs'', hf.trans hf', by simp [hlen], ?_⟩
      · rw [List.mapM_cons, Sim.run_bind_ok hrun, Sim.run_bind_ok hrun']
        rfl
      · intro k hk
        rcases List.mem_cons.1 hk with rfl | hk
        · exact hon.follows hf'
        · exact hons k hk

end Starting

end Node

namespace Cluster

section Standing

/-- A cluster in a sound simulation, with its nodes on their topic of a log that is there. -/
structure Stands (c log : Nat) (settings : Channel.Settings) (nodes : List Node)
    (s : Simulation) : Prop where
  sound : s.Sound
  there : log < s.world.logs.length
  cluster : s.world.clusters[c]? = some ⟨log, settings, nodes⟩
  on : ∀ n ∈ nodes, n.On s.world log settings.topic

variable {c log : Nat} {settings : Channel.Settings} {nodes : List Node} {s s' : Simulation}

/-- What keeps a simulation leaves its clusters standing. -/
theorem Stands.keeps (h : Stands c log settings nodes s) (hk : s.Keeps s') :
    Stands c log settings nodes s' := by
  obtain ⟨hs, hf⟩ := hk h.sound
  refine ⟨hs, ?_, ?_, fun n hn => (h.on n hn).follows hf⟩
  · rw [hf.logs]
    exact h.there
  · rw [hf.clusters]
    exact h.cluster

/-- A cluster of at least one node starts on a log in a sound simulation. -/
theorem start_stands {size : Nat} (hsize : size ≠ 0) (settings : Channel.Settings)
    (hlog : log < s.world.logs.length) (hs : s.Sound) :
    ∃ nodes s', (start log size settings).run.run s = (.ok s.world.clusters.length, s') ∧
      nodes.length = size ∧ Stands s.world.clusters.length log settings nodes s' := by
  obtain ⟨nodes, s', hrun, hs', hf, hlen, hon⟩ :=
    Node.startAll_on settings (fun i => "node-" ++ toString i) (List.range size)
      hlog hs
  refine ⟨nodes, { s' with world := { s'.world with
    clusters := s'.world.clusters ++ [⟨log, settings, nodes⟩] } }, ?_, ?_, ?_⟩
  · unfold start
    rw [if_neg hsize, Sim.run_bind_ok hrun, ← hf.clusters]
    rfl
  · rw [hlen, List.length_range]
  · refine ⟨⟨hs'.world.withClusters _, hs'.queue⟩, ?_, ?_, fun n hn => (hon n hn).withClusters _⟩
    · change log < s'.world.logs.length
      rw [hf.logs]
      exact hlog
    · rw [← hf.clusters]
      simp

/-- A cluster that has been started stands, with as many nodes as were asked for. -/
theorem stands_of_start {size : Nat} (hlog : log < s.world.logs.length) (hs : s.Sound)
    (h : (start log size settings).run.run s = (.ok c, s')) :
    size ≠ 0 ∧ ∃ nodes, nodes.length = size ∧ Stands c log settings nodes s' := by
  have hsize : size ≠ 0 := by
    rintro rfl
    cases h
  obtain ⟨nodes, s'', hrun, hlen, hstands⟩ := start_stands hsize settings hlog hs
  rw [hrun] at h
  cases h
  exact ⟨hsize, nodes, hlen, hstands⟩

end Standing

section Looking

variable {c log : Nat} {settings : Channel.Settings} {nodes : List Node} {s s' : Simulation}

/-- The entries that hold the commands of a cluster. -/
def entries (w : World) (log : Nat) (settings : Channel.Settings) : List Entry :=
  (w.log log).written ⟨settings.topic, Channel.commandPartition⟩

/-- All commands up to the last entry are all there are. -/
theorem through_lastBelow (schema : CommandSchema) (es : List Entry) :
    Engine.through schema es (lastBelow es.length) = Engine.after schema es := by
  cases es with
  | nil => rfl
  | cons e es => simp [Engine.through, lastBelow]

theorem run_find_of_some {cluster : Cluster} (h : s.world.clusters[c]? = some cluster) :
    (find c).run.run s = (.ok cluster, s) := by
  unfold find
  rw [Sim.run_bind_ok (Sim.run_world s), h]
  rfl

theorem run_find (h : Stands c log settings nodes s) :
    (find c).run.run s = (.ok ⟨log, settings, nodes⟩, s) :=
  run_find_of_some h.cluster

theorem run_endOffset (h : Stands c log settings nodes s) :
    (endOffset c).run.run s = (.ok (entries s.world log settings).length, s) := by
  unfold endOffset
  rw [Sim.run_bind_ok (run_find h), Sim.run_bind_ok (Sim.run_world s), entries,
    Log.length_written]
  rfl

theorem run_look (h : Stands c log settings nodes s) :
    (look c).run.run s =
      (.ok ⟨lastBelow (entries s.world log settings).length, nodes.map (Node.engine s.world)⟩,
        s) := by
  unfold look
  rw [Sim.run_bind_ok (Sim.run_world s), Sim.run_bind_ok (run_endOffset h),
    Sim.run_bind_ok (run_find h), Sim.run_pure]

/-- The state on which the nodes agree is that after all commands of the log. -/
theorem Stands.agreed (h : Stands c log settings nodes s) (hn : nodes ≠ []) {e : Engine}
    (ha : View.agreement ⟨lastBelow (entries s.world log settings).length,
      nodes.map (Node.engine s.world)⟩ = some e) :
    e = Engine.after .json (entries s.world log settings) := by
  cases nodes with
  | nil => exact absurd rfl hn
  | cons n nodes =>
      simp only [View.agreement, List.map_cons] at ha
      split at ha
      next hagree =>
        cases ha
        rw [← through_lastBelow, ← hagree.1]
        exact (h.on n (by simp)).engine_eq h.sound.world
      next => cases ha

/-- A cluster that has converged still stands, and its nodes agree. -/
theorem Stands.agreesBy (h : Stands c log settings nodes s) (deadline looks : Nat) {e : Engine}
    (hrun : (convergeBy c deadline looks).run.run s = (.ok e, s')) :
    Stands c log settings nodes s' ∧
      View.agreement ⟨lastBelow (entries s'.world log settings).length,
        nodes.map (Node.engine s'.world)⟩ = some e := by
  induction looks generalizing s with
  | zero =>
      unfold convergeBy at hrun
      rw [Sim.run_bind_ok (run_look h)] at hrun
      split at hrun
      next ha =>
        cases hrun
        exact ⟨h, ha⟩
      next => cases hrun
  | succ looks ih =>
      unfold convergeBy at hrun
      rw [Sim.run_bind_ok (run_look h)] at hrun
      split at hrun
      next ha =>
        cases hrun
        exact ⟨h, ha⟩
      next =>
        rw [Sim.run_bind_ok (Sim.run_now s)] at hrun
        split at hrun
        · have hslept := Sim.sleep_keeps lookInterval s
          rcases hsleep : (Sim.sleep lookInterval).run.run s with ⟨result, s''⟩
          rw [hsleep] at hslept
          cases result with
          | ok _ =>
              rw [Sim.run_bind_ok hsleep] at hrun
              exact ih (h.keeps hslept) hrun
          | error err =>
              rw [Sim.run_bind_error hsleep] at hrun
              cases hrun
        · cases hrun

theorem Stands.agrees_of_converge (h : Stands c log settings nodes s) (timeout : Nat) {e : Engine}
    (hrun : (converge c timeout).run.run s = (.ok e, s')) :
    Stands c log settings nodes s' ∧
      View.agreement ⟨lastBelow (entries s'.world log settings).length,
        nodes.map (Node.engine s'.world)⟩ = some e := by
  unfold converge at hrun
  rw [Sim.run_bind_ok (Sim.run_now s)] at hrun
  exact h.agreesBy _ _ hrun

/-- What a cluster with a node converges on is the state after all commands of the log. -/
theorem Stands.converged (h : Stands c log settings nodes s) (hn : nodes ≠ []) (timeout : Nat)
    {e : Engine} (hrun : (converge c timeout).run.run s = (.ok e, s')) :
    e = Engine.after .json (entries s'.world log settings) := by
  obtain ⟨hstands, ha⟩ := h.agrees_of_converge timeout hrun
  exact hstands.agreed hn ha

end Looking

section Changing

variable {c log : Nat} {settings : Channel.Settings} {nodes : List Node} {s s' : Simulation}

theorem run_node_of_some {cluster : Cluster} (h : s.world.clusters[c]? = some cluster) {i : Nat}
    {n : Node} (hi : cluster.nodes[i]? = some n) : (node c i).run.run s = (.ok n, s) := by
  unfold node
  rw [Sim.run_bind_ok (run_find_of_some h), hi]
  rfl

theorem run_node (h : Stands c log settings nodes s) {i : Nat} {n : Node}
    (hi : nodes[i]? = some n) : (node c i).run.run s = (.ok n, s) :=
  run_node_of_some h.cluster hi

theorem run_node_none (h : Stands c log settings nodes s) {i : Nat} (hi : nodes[i]? = none) :
    ∃ e, (node c i).run.run s = (.error e, s) := by
  unfold node
  rw [Sim.run_bind_ok (run_find h)]
  dsimp only
  rw [hi]
  exact ⟨_, rfl⟩

/-- A snapshot of a node shows its engine. -/
theorem run_snapshot (h : Stands c log settings nodes s) {i : Nat} {n : Node}
    (hi : nodes[i]? = some n) : (snapshot c i).run.run s = (.ok (n.engine s.world), s) := by
  unfold snapshot
  rw [Sim.run_bind_ok (run_node h hi)]
  rfl

/-- There is no snapshot of a node that the cluster does not have. -/
theorem run_snapshot_none (h : Stands c log settings nodes s) {i : Nat} (hi : nodes[i]? = none) :
    ∃ e, (snapshot c i).run.run s = (.error e, s) := by
  obtain ⟨e, he⟩ := run_node_none h hi
  exact ⟨e, Sim.run_bind_error he _⟩

theorem node_keeps (c i : Nat) : (node c i).Keeps := by
  refine .bind (.bind Sim.world_keeps fun w => ?_) fun cluster => ?_
  · split
    · exact .pure _
    · exact .throw _
  · split
    · exact .pure _
    · exact .throw _

theorem run_setNodes (c : Nat) (f : List Node → List Node) (s : Simulation) :
    (setNodes c f).run.run s = (.ok (), ((setNodes c f).run.run s).2) := rfl

/-- The nodes of a cluster may be replaced by others on its topic. -/
theorem Stands.withNodes (h : Stands c log settings nodes s) (f : List Node → List Node)
    (hf : ∀ n ∈ f nodes, n.On s.world log settings.topic) :
    Stands c log settings (f nodes) ((setNodes c f).run.run s).2 := by
  refine ⟨⟨h.sound.world.withClusters _, h.sound.queue⟩, h.there, ?_,
    fun n hn => (hf n hn).withClusters _⟩
  change (s.world.clusters.modify c _)[c]? = _
  rw [List.getElem?_modify, h.cluster]
  simp

/-- To submit a command keeps a simulation sound. -/
theorem submit_keeps (c i : Nat) (id : CommandId) (command : Command) :
    (submit c i id command).Keeps := by
  refine .bind (node_keeps c i) fun n => .tryCatch (Sim.await_keeps ⟨_, rfl, trivial⟩) fun e => ?_
  split
  · exact .throw _
  · exact .throw _

/-- To stop a node keeps a simulation sound. -/
theorem stop_keeps (n : Node) : n.stop.Keeps := by
  refine .bind Sim.now_keeps fun now => .bind (Sim.change_keeps fun w => w.keeps_stopPost now _)
    fun _ => .bind (.tryCatch (Sim.await_keeps trivial) fun e => ?_) fun answer =>
      .bind (Sim.await_keeps ⟨_, rfl, trivial⟩) fun _ => ?_
  · split
    · exact .throw _
    · exact .throw _
    · exact .throw _
  · split
    · exact .pure _
    · exact .pure _

/-- A node may be taken out of a cluster. -/
theorem Stands.left (h : Stands c log settings nodes s) (i : Nat) :
    Stands c log settings (nodes.eraseIdx i)
      ((setNodes c (·.eraseIdx i)).run.run s).2 :=
  h.withNodes (·.eraseIdx i) fun n hn => h.on n (List.mem_of_mem_eraseIdx hn)

/-- A new node may come into a cluster. -/
theorem Stands.joined (h : Stands c log settings nodes s) (name : String) (i : Nat) :
    ∃ n s', (Node.start log settings name).run.run s = (.ok n, s') ∧
      Stands c log settings (nodes.insertIdx i n)
        ((setNodes c (·.insertIdx i n)).run.run s').2 := by
  obtain ⟨n, s', hrun, hs', hf, hon⟩ := Node.start_on settings h.there name h.sound
  have hstands : Stands c log settings nodes s' := h.keeps fun _ => ⟨hs', hf⟩
  refine ⟨n, s', hrun, hstands.withNodes (·.insertIdx i n) fun k hk => ?_⟩
  rcases List.eq_or_mem_of_mem_insertIdx hk with rfl | hk
  · exact hon
  · exact hstands.on k hk

/-- A restart that succeeds leaves the cluster standing, with as many nodes as before. -/
theorem Stands.restarted (h : Stands c log settings nodes s) (i : Nat) {tally : Tally}
    (hrun : (restart c i).run.run s = (.ok tally, s')) :
    ∃ nodes', nodes'.length = nodes.length ∧ Stands c log settings nodes' s' := by
  unfold restart at hrun
  cases hi : nodes[i]? with
  | none =>
      obtain ⟨e, he⟩ := run_node_none h hi
      rw [Sim.run_bind_error he] at hrun
      cases hrun
  | some old =>
      rw [Sim.run_bind_ok (run_node h hi), Sim.run_bind_ok (run_setNodes c _ s)] at hrun
      have hleft := h.left i
      have hstop := stop_keeps old ((setNodes c (·.eraseIdx i)).run.run s).2
      rcases hstopped : old.stop.run.run ((setNodes c (·.eraseIdx i)).run.run s).2 with ⟨result, s₁⟩
      rw [hstopped] at hstop
      cases result with
      | error e =>
          rw [Sim.run_bind_error hstopped] at hrun
          cases hrun
      | ok _ =>
          have hstands := hleft.keeps hstop
          obtain ⟨n, s₂, hstart, hjoined⟩ := hstands.joined old.name i
          rw [Sim.run_bind_ok hstopped, Sim.run_bind_ok (run_find hstands),
            Sim.run_bind_ok hstart, Sim.run_bind_ok (run_setNodes c _ s₂)] at hrun
          cases hrun
          have hlt : i < nodes.length := by
            obtain ⟨hlt, -⟩ := List.getElem?_eq_some_iff.1 hi
            exact hlt
          have hshort : (nodes.eraseIdx i).length = nodes.length - 1 :=
            List.length_eraseIdx_of_lt hlt
          refine ⟨_, ?_, hjoined⟩
          rw [List.length_insertIdx_of_le_length (by omega)]
          omega

end Changing

end Cluster
end ReplicatedLog
