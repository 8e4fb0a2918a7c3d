import ReplicatedLog.Cluster.Scenario
import ReplicatedLog.Proofs.Cluster.Interrupting
import ReplicatedLog.Proofs.Cluster.Workload

/-!
# What comes of the scenarios

With at least one node every scenario succeeds, whatever its size, and reports what it
should; without nodes it fails before anything has been done.

* `Scenario.Succeeds`: what a report shows of a scenario that has succeeded;
* `run_submitRange` and `run_finish`: the parts of the scenarios on a steady cluster;
* `run_reports`: what comes of all scenarios.
-/

namespace ReplicatedLog
namespace Scenario

open Channel Cluster

/-- A report on a cluster that has converged on so many commands of the workload, each of which
every node has handled once, without failure. -/
structure Succeeds (name : String) (nodes commands : Nat) (r : Report) : Prop where
  title : r.name = name
  size : r.nodes = nodes
  log : r.commands = commands
  entities : r.entities = Workload.expectedEntities commands
  names : r.tallies.map Prod.fst = (List.range nodes).map fun i => "node-" ++ toString i
  tallies : ∀ e ∈ r.tallies, Told commands e.2

section Working

/-- No engine fails on the workload. -/
theorem smooth_script (n : Nat) : Runner.Smooth (Workload.script n) := by
  have hqueued : ∀ (i : Nat) (q : QueuedCommand), (Workload.script n)[i]? = some q →
      i < n ∧ q = Workload.queued i := by
    intro i q hq
    have hi : i < n := by
      have := (List.getElem?_eq_some_iff.1 hq).1
      rwa [Workload.length_script] at this
    exact ⟨hi, Option.some.inj (hq.symm.trans (Workload.getElem?_script hi))⟩
  refine ⟨fun i q hq => ?_, fun i q hq => ?_⟩
  · obtain ⟨-, rfl⟩ := hqueued i q hq
    rfl
  · obtain ⟨hi, rfl⟩ := hqueued i q hq
    rw [Workload.take_script (Nat.le_of_lt hi)]
    exact Workload.execute_succeeds i

theorem patience_settings (isReplay : Bool) : Runner.patience settings.timing isReplay = 50 := by
  cases isReplay <;> exact Duration.ticks_ofMillis 50

theorem suits_empty : Suits settings {} (Workload.script 0) :=
  ⟨Log.carries_empty _, smooth_script 0, fun isReplay => by
    rw [patience_settings]
    decide⟩

variable {l n limit low c : Nat} {clusters : List Cluster} {log : Log} {crew : List Mate}
  {s : Simulation}

theorem script_next (n : Nat) :
    Workload.script n ++ [⟨(Workload.queued n).id, (Workload.queued n).command,
      some (Workload.script n).length⟩] = Workload.script (n + 1) := by
  rw [Workload.script_succ, Workload.length_script]
  rfl

/-- The next command of the workload is submitted through the node whose turn it is. -/
theorem run_submitOne (h : Steady settings l clusters log (Workload.script n) limit low crew s)
    (hc : clusters[c]? = some ⟨l, settings, crew.map Mate.node⟩) (hcrew : crew ≠ [])
    (hholding : log.isHolding = false) (hroom : 9 * (n + 1) + crew.length + 40 ≤ s.patience)
    (hlimit : limit ≤ s.now + 50) :
    ∃ log' s', (submitOne c crew.length n).run.run s = (.ok (), s') ∧ log'.isHolding = false ∧
      Steady settings l clusters log' (Workload.script (n + 1)) (s.now + 50) low crew s' ∧
      AtOnce s s' := by
  have hpos : 0 < crew.length := List.length_pos_iff.2 hcrew
  have hm := List.getElem?_eq_getElem (Nat.mod_lt n hpos)
  have hsubmit := h.submit hc hm hholding (Workload.queued n).id (Workload.queued n).command
  rw [script_next, Workload.length_script, patience_settings] at hsubmit
  obtain ⟨log', s', hrun, hheld, h', honce⟩ := hsubmit (smooth_script _) hroom hlimit
  refine ⟨log', s', ?_, hheld, h', honce⟩
  unfold submitOne
  rw [Workload.command_eq]
  dsimp only
  rw [Sim.run_bind_ok hrun]
  rfl

/-- The commands of the workload from one index up to another are submitted. -/
theorem run_submitRange (h : Steady settings l clusters log (Workload.script n) limit low crew s)
    (hc : clusters[c]? = some ⟨l, settings, crew.map Mate.node⟩) (hcrew : crew ≠ [])
    (hholding : log.isHolding = false) {stop : Nat} (hstop : n ≤ stop)
    (hroom : 9 * stop + crew.length + 40 ≤ s.patience) (hlimit : limit ≤ s.now + 50) :
    ∃ log' s', (submitRange c crew.length n stop).run.run s = (.ok (), s') ∧
      log'.isHolding = false ∧
      Steady settings l clusters log' (Workload.script stop) (s.now + 50) low crew s' ∧
      AtOnce s s' := by
  obtain ⟨count, rfl⟩ := Nat.exists_eq_add_of_le hstop
  unfold submitRange
  rw [Nat.add_sub_cancel_left]
  clear hstop
  induction count generalizing n log limit s with
  | zero =>
      exact ⟨log, s, rfl, hholding, h.mono (Nat.le_refl _) hlimit, ⟨rfl, rfl, rfl⟩⟩
  | succ count ih =>
      obtain ⟨log₁, s₁, hone, hheld₁, h₁, honce₁⟩ :=
        run_submitOne h hc hcrew hholding (by omega) hlimit
      obtain ⟨log₂, s₂, hrest, hheld₂, h₂, honce₂⟩ :=
        ih h₁ hheld₁ (Nat.le_of_eq (by rw [honce₁.now])) (by
          rw [honce₁.patience]
          omega)
      rw [honce₁.now, Nat.add_right_comm] at h₂
      refine ⟨log₂, s₂, ?_, hheld₂, h₂, honce₁.trans honce₂⟩
      rw [List.range'_succ]
      exact (Sim.run_bind_ok hone _).trans hrest

/-- In the end the cluster has converged, and every node tells of all commands. -/
theorem run_finish (h : Steady settings l clusters log (Workload.script n) limit low crew s)
    (hc : clusters[c]? = some ⟨l, settings, crew.map Mate.node⟩) (hcrew : crew ≠ [])
    (hnow : s.now ≤ limit) (hlimit : limit ≤ s.now + 50) (hend : s.now + 100 ≤ s.limit)
    (hnames : crew.map (·.node.name) = (List.range crew.length).map fun i => "node-" ++ toString i)
    (name : String) :
    ∃ r s', (finish name c).run.run s = (.ok r, s') ∧ Succeeds name crew.length n r := by
  obtain ⟨s₁, hconverge, h₁⟩ := h.converge hc hcrew patience hnow
    (by simp only [patience, lookInterval]; omega) (by simp only [lookInterval]; omega)
  obtain ⟨tallies, s₂, hstop, hnamed, htold⟩ := h₁.steady.stopAll
  rw [Workload.length_script] at htold
  have hstopped : (Cluster.stop c).run.run s₁ = (.ok tallies, s₂) := by
    unfold Cluster.stop
    rw [Sim.run_bind_ok (h₁.steady.crewed.found hc)]
    exact hstop
  refine ⟨⟨name, (crew.map Mate.node).length, (Workload.script n).length,
    (Engine.run {} (Workload.script n)).entities.size, tallies⟩, s₂, ?_,
    ⟨rfl, List.length_map _, Workload.length_script n, Workload.size_engineAfter n,
      hnamed.trans hnames, htold⟩⟩
  unfold finish
  rw [Sim.run_bind_ok hconverge, Sim.run_bind_ok (h₁.steady.crewed.found hc),
    Sim.run_bind_ok (h₁.steady.crewed.endOffset h₁.steady.suits.carries hc),
    Sim.run_bind_ok hstopped]
  rfl

end Working

section Beginning

/-- The new world in which a scenario runs. -/
def start (patience : Nat) : Simulation :=
  { limit, patience }

/-- A cluster has been started on a log of its own, and nothing else has been done. -/
structure Begun (nodes patience : Nat) (crew : List Mate) (s : Simulation) : Prop where
  steady : Steady settings 0 [⟨0, settings, crew.map Mate.node⟩] {} (Workload.script 0) 50 0 crew s
  size : crew.length = nodes
  names : crew.map (·.node.name) = (List.range nodes).map fun i => "node-" ++ toString i
  now : s.now = 0
  limit : s.limit = limit
  patience : s.patience = patience
  results : s.world.results = []

/-- A cluster starts on a log of its own. -/
theorem run_startCluster (nodes patience : Nat) (hp : nodes + 1 + 40 ≤ patience) :
    ∃ crew s, (startCluster (nodes + 1)).run.run (start patience) = (.ok 0, s) ∧
      Begun (nodes + 1) patience crew s := by
  let s₁ : Simulation := { start patience with world := { logs := [{}] } }
  have h₁ : Steady settings 0 [] {} (Workload.script 0) 50 0 [] s₁ :=
    ⟨suits_empty, ⟨Nat.one_pos, rfl, rfl, .nil, .nil, nofun, .nil, nofun⟩, by
      change 9 * 0 + 0 + 40 ≤ patience
      omega⟩
  obtain ⟨crew, s₂, hstart, hnames, h₂, honce, hresults⟩ := h₁.startAll
    (fun i => "node-" ++ toString i) (List.range (nodes + 1))
    (by rw [patience_settings]; exact Nat.le_refl _) (by
      rw [List.length_range]
      change 9 * 0 + (nodes + 1 + 0) + 40 ≤ patience
      omega)
  rw [List.append_nil] at h₂
  have hsize := congrArg List.length hnames
  rw [List.length_map, List.length_map, List.length_range] at hsize
  refine ⟨crew, { s₂ with world := { s₂.world with
    clusters := [⟨0, settings, crew.map Mate.node⟩] } }, ?_, h₂.withClusters _, hsize, hnames,
    honce.now, honce.limit, honce.patience, hresults⟩
  unfold startCluster
  rw [Sim.run_bind_ok (Sim.run_change _ _)]
  unfold Cluster.start
  rw [if_neg (Nat.succ_ne_zero nodes)]
  refine (Sim.run_bind_ok hstart _).trans ?_
  rw [Sim.run_change, h₂.crewed.clusters]
  rfl

/-- The patience of a scenario is enough for all that its tasks may have to do. -/
theorem enough (nodes commands : Nat) :
    9 * commands + 2 * (nodes + 1) + 60 ≤ 1000 * (nodes + 1 + 1) * (commands + 1) := by
  have hcommands : commands + 1 ≤ (nodes + 1 + 1) * (commands + 1) :=
    Nat.le_mul_of_pos_left _ (Nat.succ_pos _)
  have hnodes : nodes + 1 + 1 ≤ (nodes + 1 + 1) * (commands + 1) :=
    Nat.le_mul_of_pos_right _ (Nat.succ_pos _)
  rw [Nat.mul_assoc]
  omega

/-- The beginning of a scenario that is run with enough patience. -/
theorem run_begin (nodes commands : Nat) :
    ∃ crew s, (startCluster (nodes + 1)).run.run
        (start (1000 * (nodes + 1 + 1) * (commands + 1))) = (.ok 0, s) ∧
      Begun (nodes + 1) s.patience crew s ∧ crew ≠ [] ∧
      9 * commands + 2 * crew.length + 60 ≤ s.patience := by
  have hroom := enough nodes commands
  obtain ⟨crew, s, hstart, h⟩ :=
    run_startCluster nodes (1000 * (nodes + 1 + 1) * (commands + 1)) (by omega)
  refine ⟨crew, s, hstart, h.patience ▸ h, List.ne_nil_of_length_eq_add_one h.size, ?_⟩
  rw [h.size, h.patience]
  exact hroom

end Beginning

section Running

/-- The workload is submitted, and the nodes converge on it. -/
theorem run_converge (nodes commands : Nat) :
    ∃ r, run (nodes + 1) commands (converge (nodes + 1) commands) = .ok r ∧
      Succeeds "converge" (nodes + 1) commands r := by
  obtain ⟨crew, s₁, hstart, h₁, hcrew, hroom⟩ := run_begin nodes commands
  have hnow₁ := h₁.now
  have hc : [(⟨0, settings, crew.map Mate.node⟩ : Cluster)][0]? = some _ := rfl
  obtain ⟨log, s₂, hsubmit, -, h₂, honce⟩ := run_submitRange h₁.steady hc hcrew rfl
    (Nat.zero_le commands) (by omega) (by omega)
  have hnow₂ := honce.now
  obtain ⟨r, s₃, hfinish, hr⟩ := run_finish h₂ hc hcrew (by omega) (by omega)
    (by rw [hnow₂, hnow₁, honce.limit, h₁.limit]; decide) (h₁.size ▸ h₁.names) "converge"
  rw [h₁.size] at hsubmit hr
  refine ⟨r, ?_, hr⟩
  have hexpected : ¬ r.entities ≠ Workload.expectedEntities commands := not_not_intro hr.entities
  have hrun : (converge (nodes + 1) commands).run.run
      (start (1000 * (nodes + 1 + 1) * (commands + 1))) = (.ok r, s₃) := by
    unfold converge
    rw [Sim.run_bind_ok hstart, Sim.run_bind_ok hsubmit, Sim.run_bind_ok hfinish,
      if_neg hexpected]
    rfl
  exact congrArg Prod.fst hrun

/-- The first node is replaced halfway, and the new one handles every command. -/
theorem run_restart (nodes commands : Nat) :
    ∃ r, run (nodes + 1) commands (restart (nodes + 1) commands) = .ok r ∧
      Succeeds "restart" (nodes + 1) commands r := by
  have hhalf : commands / 2 ≤ commands := Nat.div_le_self commands 2
  have hlong : 1000 ≤ limit := by decide
  obtain ⟨crew, s₁, hstart, h₁, hcrew, hroom⟩ := run_begin nodes commands
  obtain ⟨m, crew, rfl⟩ := List.exists_cons_of_ne_nil hcrew
  have hnow₁ := h₁.now
  have hlimit₁ := h₁.limit
  have hc : [(⟨0, settings, (m :: crew).map Mate.node⟩ : Cluster)][0]? = some _ := rfl
  obtain ⟨log₂, s₂, hsubmit₂, hheld₂, h₂, honce₂⟩ := run_submitRange h₁.steady hc hcrew rfl
    (Nat.zero_le (commands / 2)) (by omega) (by omega)
  have hnow₂ := honce₂.now
  have hlimit₂ := honce₂.limit
  -- halfway the nodes agree, and the first one is replaced
  obtain ⟨s₃, hconverge, h₃⟩ := h₂.converge hc hcrew patience (by omega)
    (by simp only [patience, lookInterval]; omega) (by simp only [lookInterval]; omega)
  have hafter := h₃.after
  have hsoon := h₃.soon
  have hlimit₃ := h₃.limit
  obtain ⟨t, m', clusters, s₄, hrestart, hname, hc₄, h₄, honce₄⟩ :=
    h₃.steady.restart hc (by rw [patience_settings]; omega)
  rw [patience_settings] at h₄
  have hsize : (m' :: crew).length = nodes + 1 := h₁.size
  have hnames : (m' :: crew).map (·.node.name) =
      (List.range (m' :: crew).length).map fun i => "node-" ++ toString i := by
    rw [List.map_cons, hname, hsize]
    exact h₁.names
  have hnow₄ := honce₄.now
  have hlimit₄ := honce₄.limit
  have hroom₄ : s₄.patience = s₁.patience :=
    honce₄.patience.trans (h₃.patience.trans honce₂.patience)
  have hsame : (m' :: crew).length = (m :: crew).length := rfl
  obtain ⟨log₅, s₅, hsubmit₅, -, h₅, honce₅⟩ :=
    run_submitRange h₄ hc₄ (List.cons_ne_nil _ _) hheld₂ hhalf
    (by omega) (by omega)
  have hnow₅ := honce₅.now
  have hlimit₅ := honce₅.limit
  obtain ⟨r, s₆, hfinish, hr⟩ := run_finish h₅ hc₄ (List.cons_ne_nil _ _) (by omega)
    (by omega) (by omega) hnames "restart"
  rw [h₁.size] at hsubmit₂
  rw [hsize] at hsubmit₅ hr
  refine ⟨r, ?_, hr⟩
  have hrun : (restart (nodes + 1) commands).run.run
      (start (1000 * (nodes + 1 + 1) * (commands + 1))) = (.ok r, s₆) := by
    unfold restart
    rw [Sim.run_bind_ok hstart, Sim.run_bind_ok hsubmit₂, Sim.run_bind_ok hconverge,
      Sim.run_bind_ok hrestart, Sim.run_bind_ok hsubmit₅, Sim.run_bind_ok hfinish]
    obtain ⟨e, tallies, htallies⟩ : ∃ e tallies, r.tallies = e :: tallies := by
      have hnamed := hr.names
      cases htallies : r.tallies with
      | nil =>
          rw [htallies, List.range_succ_eq_map] at hnamed
          cases hnamed
      | cons e tallies => exact ⟨e, tallies, rfl⟩
    have htold := hr.tallies e (htallies ▸ List.mem_cons_self)
    have hhandled : ¬ e.2.replayed + e.2.executed + e.2.failed ≠ commands := by
      rw [htold.failed]
      exact not_not_intro htold.total
    simp only [htallies, if_neg hhandled]
    rfl
  exact congrArg Prod.fst hrun

/-- After a first look the command of a send is in the log. -/
theorem run_awaitEntry {d : Cluster.Sending} {l c deadline : Nat} {clusters : List Cluster}
    {crew : List Mate} {m : Mate} {s : Simulation} (hd : d.Held) (hm : m ∈ crew)
    (hlink : m.node.link = d.link) (hqs : d.qs = [])
    (hc : clusters[c]? = some ⟨l, d.settings, crew.map Mate.node⟩)
    (hroom : 9 * d.qs'.length + 2 * crew.length + 40 ≤ s.patience)
    (hlimit : s.now + Runner.patience d.settings.timing true ≤ d.limit)
    (hon : (d.entering s.now).On l clusters crew s) (hdeadline : s.now < deadline)
    (hlater : s.now + 5 ≤ s.limit) {looks : Nat} (hlooks : 2 ≤ looks) :
    ∃ s', (awaitEntry c deadline looks).run.run s =
        (.ok (), { s' with now := s.now + 5 }) ∧
      ((d.waiting s'.now).resting s'.now).On l clusters crew s' ∧
      s'.limit = s.limit ∧ s'.patience = s.patience := by
  obtain ⟨looks, rfl⟩ := Nat.exists_eq_add_of_le' hlooks
  have hnone : (endOffset c).run.run s = (.ok 0, s) := by
    have hlook := hon.crewed.endOffset hd.before.carries hc
    rwa [hqs] at hlook
  obtain ⟨s', hsleep, hwaiting, hsame⟩ :=
    hd.sleep hm hlink hroom hlimit hon (show 0 < 5 by decide) (by decide) hlater
  have hsome : (endOffset c).run.run { s' with now := s.now + 5 } =
      (.ok 1, { s' with now := s.now + 5 }) := by
    have hlook := (hwaiting.crewed.passes (s.now + 5)).endOffset hd.after.carries hc
    rwa [Cluster.Sending.qs', hqs] at hlook
  refine ⟨s', ?_, hwaiting, hsame⟩
  unfold awaitEntry
  rw [Sim.run_bind_ok hnone, if_pos rfl, Sim.run_bind_ok (Sim.run_now s), if_pos hdeadline,
    Sim.run_bind_ok hsleep]
  unfold awaitEntry
  rw [Sim.run_bind_ok hsome]
  rfl

/-- A send that is interrupted while its acknowledgment is held back has appended its command. -/
theorem run_interrupt (nodes commands : Nat) :
    ∃ r, run (nodes + 1) commands (interrupt (nodes + 1)) = .ok r ∧
      Succeeds "interrupt" (nodes + 1) 1 r := by
  obtain ⟨crew, s₁, hstart, h₁, hcrew, hroom⟩ := run_begin nodes commands
  obtain ⟨m, crew, rfl⟩ := List.exists_cons_of_ne_nil hcrew
  have hnow₁ := h₁.now
  have hlimit₁ := h₁.limit
  have hlong : 1000 ≤ limit := by decide
  let clusters : List Cluster := [⟨0, settings, (m :: crew).map Mate.node⟩]
  have hc : clusters[0]? = some ⟨0, settings, (m :: crew).map Mate.node⟩ := rfl
  -- acknowledgments are held back, and the send is put under way
  let held : Log := ({} : Log).hold
  let s₂ : Simulation := { s₁ with world := s₁.world.setLog 0 (s₁.world.log 0).hold }
  have h₂ : Steady settings 0 clusters held (Workload.script 0) 55 0 (m :: crew) s₂ :=
    h₁.steady.changeLog Log.hold suits_empty.carries.hold rfl (by decide)
  let d : Cluster.Sending :=
    { settings, log := held, qs := Workload.script 0, id := (Workload.queued 0).id
      command := (Workload.queued 0).command, task := s₂.nextTask, link := m.node.link
      interrupts := (s₂.world.channel (.link m.node.link)).interrupts, results := [], limit := 55 }
  have hqs' : d.qs' = Workload.script 1 := script_next 0
  have hd : d.Held := Cluster.Sending.held_of_suits h₂.suits rfl (hqs' ▸ smooth_script 1)
  let send : Task := .onLink m.node.link
    (.entered (.send (Workload.queued 0).id (Workload.queued 0).command))
  let s₃ : Simulation :=
    { s₂ with queue := s₂.queue ++ [(s₂.nextTask, send)], nextTask := s₂.nextTask + 1 }
  have hon₃ : (d.entering s₃.now).On 0 clusters (m :: crew) s₃ :=
    ⟨h₂.crewed.spawn send, rfl, h₁.results⟩
  have hsize : d.qs'.length = 1 := by rw [hqs', Workload.length_script]
  have hpatient : Runner.patience d.settings.timing true = 50 := patience_settings true
  have hsoon : d.limit = 55 := rfl
  have hnow₃ : s₃.now = 0 := hnow₁
  have hlimit₃ : s₃.limit = limit := hlimit₁
  have hroom₃ : 9 * commands + 2 * (m :: crew).length + 60 ≤ s₃.patience := hroom
  obtain ⟨s₄, hentry, hwaiting, hlimit₄, hroom₄⟩ := run_awaitEntry hd List.mem_cons_self rfl rfl hc
    (by omega) (by omega) hon₃ (show s₃.now < s₃.now + patience by simp only [patience]; omega)
    (by omega) (show 2 ≤ patience / 5 + 1 by decide)
  -- the channel is interrupted, and the send cancelled
  let s₅ : Simulation := { s₄ with now := s₃.now + 5 }
  let s₆ : Simulation := { s₅ with world := s₅.world.interrupt s₅.now (.link m.node.link) }
  have hnow₆ : s₆.now = 5 := congrArg (· + 5) hnow₃
  have hstirred : (d.stirred s₆.now).On 0 clusters (m :: crew) s₆ :=
    hd.interrupt List.mem_cons_self rfl hwaiting (by omega)
  have hroom₆ : 9 * d.qs'.length + (m :: crew).length + 40 ≤ s₆.patience := by
    change _ ≤ s₄.patience
    omega
  obtain ⟨s₇, hcancelled, h₇, honce₇⟩ :=
    hd.await List.mem_cons_self rfl hroom₆ hstirred rfl
  have hnow₇ : s₇.now = 5 := honce₇.now.trans hnow₆
  have hlimit₇ : s₇.limit = limit := honce₇.limit.trans (hlimit₄.trans hlimit₃)
  -- the log gives its acknowledgments, and the cluster converges
  let s₈ : Simulation := { s₇ with world := s₇.world.setLog 0 (s₇.world.log 0).release.2 }
  have h₈ : Steady settings 0 clusters d.log'.release.2 (Workload.script 1) 55 0 (m :: crew) s₈ :=
    hqs' ▸ h₇.changeLog (fun log => log.release.2) hd.after.carries.release rfl (Nat.le_refl _)
  have hnow₈ : s₈.now = 5 := hnow₇
  have hlimit₈ : s₈.limit = limit := hlimit₇
  obtain ⟨r, s₉, hfinish, hr⟩ := run_finish h₈ hc hcrew (by omega) (by omega) (by omega)
    (h₁.size ▸ h₁.names) "interrupt"
  rw [h₁.size] at hr
  refine ⟨r, ?_, hr⟩
  have hspawn : (Sim.spawn send).run.run s₂ = (.ok s₂.nextTask, s₃) := rfl
  have hobserved := Sim.run_observing_error hcancelled
  have hrun : (interrupt (nodes + 1)).run.run
      (start (1000 * (nodes + 1 + 1) * (commands + 1))) = (.ok r, s₉) := by
    unfold interrupt
    rw [Sim.run_bind_ok hstart, Sim.run_bind_ok (h₁.steady.crewed.found hc),
      Sim.run_bind_ok (Sim.run_change _ _),
      Sim.run_bind_ok (run_node_of_some (s := s₂) (h₂.crewed.clusters ▸ hc) rfl),
      Workload.command_eq]
    dsimp only
    rw [Sim.run_bind_ok hspawn, Sim.run_bind_ok (Sim.run_now s₃), Sim.run_bind_ok hentry,
      Sim.run_bind_ok (Sim.run_now _), Sim.run_bind_ok (Sim.run_change _ s₅)]
    refine (Sim.run_bind_ok hobserved _).trans ?_
    exact (Sim.run_bind_ok (Sim.run_change _ s₇) _).trans hfinish
  exact congrArg Prod.fst hrun

end Running

section Refusing

/-- A scenario fails for want of nodes, and has done nothing but to make a log of its own, which is
left empty. -/
def Refuses (scenario : Sim Report) : Prop :=
  ∀ s : Simulation, scenario.run.run s =
    (.error (.failure "a cluster needs at least one node" []),
      { s with world := { s.world with logs := s.world.logs ++ [{}] } })

/-- There is no cluster without nodes, and what would have been done with it is not done. -/
theorem refuses_of_startCluster (f : Nat → Sim Report) : Refuses (startCluster 0 >>= f) := by
  intro s
  refine Sim.run_bind_error ?_ f
  unfold startCluster
  rw [Sim.run_bind_ok (Sim.run_change _ s)]
  rfl

end Refusing

/-- With at least one node every scenario succeeds, on so many commands as were submitted; and
without nodes it fails at once. -/
theorem run_reports (nodes commands : Nat) :
    (∃ r, run (nodes + 1) commands (converge (nodes + 1) commands) = .ok r ∧
        Succeeds "converge" (nodes + 1) commands r) ∧
      (∃ r, run (nodes + 1) commands (restart (nodes + 1) commands) = .ok r ∧
        Succeeds "restart" (nodes + 1) commands r) ∧
      (∃ r, run (nodes + 1) commands (interrupt (nodes + 1)) = .ok r ∧
        Succeeds "interrupt" (nodes + 1) 1 r) ∧
      Refuses (converge 0 commands) ∧ Refuses (restart 0 commands) ∧ Refuses (interrupt 0) :=
  ⟨run_converge nodes commands, run_restart nodes commands, run_interrupt nodes commands,
    refuses_of_startCluster _, refuses_of_startCluster _, refuses_of_startCluster _⟩

end Scenario
end ReplicatedLog
