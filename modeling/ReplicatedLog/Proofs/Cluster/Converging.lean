import ReplicatedLog.Proofs.Cluster.Crew
import ReplicatedLog.Proofs.Cluster.Nodes

/-!
# How a cluster converges

A cluster whose nodes nobody else disturbs, on a log of commands that no engine fails
on, comes to agree.

* `Cluster.Steady`: such a cluster, with how many commands each node has handed over at
  least, and the time until which all replays are over;
* `Steady.sleep`: the nodes go on while somebody sleeps;
* `Steady.agrees` and `Steady.of_agreement`: they agree when all have handed over
  everything, and not before;
* `Steady.converge`: in the end they agree.
-/

namespace ReplicatedLog
namespace Cluster

open Channel

section Standing

/-- A runner has not begun yet or waits in a poll, and has handed over so many commands at least. -/
def Idling (settings : Settings) (log : Log) (qs : List QueuedCommand) (now limit low : Nat)
    (me : TaskId) (st : Runner.State SharedLog Workbench) : Prop :=
  ∃ h, low ≤ h ∧
    Runner.Idles settings.timing log ⟨settings.topic, commandPartition⟩ qs me now limit h st

/-- A log carries commands that no engine fails on, and polls of it take their time. -/
structure Suits (settings : Settings) (log : Log) (qs : List QueuedCommand) : Prop where
  carries : log.Carries ⟨settings.topic, commandPartition⟩ qs
  smooth : Runner.Smooth qs
  patient : ∀ isReplay, 0 < Runner.patience settings.timing isReplay

/-- The crew of a cluster, alone in the background, on a log of commands.  Each node has handed over
`low` of them at least, and all replays are over by `limit`. -/
structure Steady (settings : Settings) (l : Nat) (clusters : List Cluster) (log : Log)
    (qs : List QueuedCommand) (limit low : Nat) (crew : List Mate) (s : Simulation) : Prop where
  suits : Suits settings log qs
  crewed : Crewed l log clusters (Idling settings log qs s.now limit low) crew [] s
  room : 9 * qs.length + crew.length + 40 ≤ s.patience

variable {settings : Settings} {l : Nat} {clusters : List Cluster} {log : Log}
  {qs : List QueuedCommand} {now limit limit' low low' : Nat} {crew : List Mate}
  {s : Simulation} {me : TaskId} {st : Runner.State SharedLog Workbench}

theorem Idling.mono (h : Idling settings log qs now limit low me st) (hlow : low' ≤ low)
    (hlimit : limit ≤ limit') : Idling settings log qs now limit' low' me st := by
  obtain ⟨n, hn, hidles⟩ := h
  exact ⟨n, Nat.le_trans hlow hn, hidles.mono hlimit⟩

theorem Steady.mono (h : Steady settings l clusters log qs limit low crew s) (hlow : low' ≤ low)
    (hlimit : limit ≤ limit') : Steady settings l clusters log qs limit' low' crew s :=
  ⟨h.suits, h.crewed.imp fun _ _ _ _ hst => hst.mono hlow hlimit, h.room⟩

theorem Idling.log_eq (h : Idling settings log qs now limit low me st) :
    st.endpoint.client.log = log := by
  obtain ⟨n, -, hidles⟩ := h
  obtain ⟨k, line, hrunning⟩ := hidles.running
  exact hrunning.place.log

/-- Such runners come to wait within some patience. -/
theorem Suits.restful (h : Suits settings log qs) {patience : Nat}
    (hp : 9 * qs.length + 20 ≤ patience) (now limit low : Nat) :
    Restful now patience log (Idling settings log qs now limit low) := by
  refine ⟨fun me st hst => hst.log_eq, fun me st ⟨n, hn, hidles⟩ hready => ?_⟩
  obtain ⟨c, n', st', hc, hle, hgoes, hidles', hrests⟩ :=
    hidles.turn h.smooth h.carries h.patient hready
  exact ⟨c, st', Nat.le_trans hc hp, hgoes, ⟨n', Nat.le_trans hn hle, hidles'⟩, hrests⟩

/-- A runner that has no reason to go on has caught up when its replay has to be over. -/
theorem Idling.caught (h : Idling settings log qs now limit low me st)
    (hrests : Runner.ready now me st = false) :
    Idling settings log qs now limit (max low (if limit ≤ now then qs.length else 0)) me st := by
  obtain ⟨n, hn, hidles⟩ := h
  refine ⟨n, Nat.max_le.2 ⟨hn, ?_⟩, hidles⟩
  split
  next hlimit => exact Nat.le_of_eq (hidles.caught hrests hlimit).symm
  next => exact Nat.zero_le n

end Standing

section Sleeping

variable {settings : Settings} {l : Nat} {clusters : List Cluster} {log : Log}
  {qs : List QueuedCommand} {limit low : Nat} {crew : List Mate} {others : List (TaskId × Task)}
  {s : Simulation}

/-- When a crew has no reason to go on, and the others do not wait for a time, the clock alone lets
nobody go on before a later time. -/
theorem Crewed.due (h : Crewed l log clusters (fun me st =>
      Idling settings log qs s.now limit low me st ∧
        Runner.ready s.now me st = false) crew others s)
    (hothers : ∀ e ∈ others, e.2.due s.world = none) {e : TaskId × Task} (he : e ∈ s.queue)
    {time : Nat} (htime : e.2.due s.world = some time) : s.now < time := by
  obtain hother | ⟨m, hm, rfl⟩ := h.mem_queue.1 he
  · cases (hothers e hother).symm.trans htime
  · obtain ⟨st, hmans, ⟨n, -, hidles⟩, hrests⟩ := h.mans m hm
    obtain ⟨time', hdue, hlt⟩ := hidles.due hrests
    cases hdue.symm.trans (hmans.due.symm.trans htime)
    exact hlt

/-- A crew that has no reason to go on is not changed by the clock. -/
theorem Crewed.passes (h : Crewed l log clusters (fun me st =>
      Idling settings log qs s.now limit low me st ∧
        Runner.ready s.now me st = false) crew others s)
    (now : Nat) :
    Crewed l log clusters (Idling settings log qs now limit low) crew others { s with now } :=
  (h.later now).imp fun _ _ _ _ ⟨⟨n, hn, hidles⟩, hrests⟩ => ⟨n, hn, hidles.later hrests now⟩

/-- While somebody sleeps the nodes go on, and have caught up if all replays have to be over. -/
theorem Steady.sleep (h : Steady settings l clusters log qs limit low crew s) (ticks : Nat)
    (hpos : 0 < ticks) (hticks : ticks < 40) (hlimit : s.now + ticks ≤ s.limit) :
    ∃ s', (Sim.sleep ticks).run.run s = (.ok (), s') ∧ s'.now = s.now + ticks ∧
      s'.limit = s.limit ∧ s'.patience = s.patience ∧
      Steady settings l clusters log qs limit
        (max low (if limit ≤ s.now then qs.length else 0)) crew s' := by
  let low' := max low (if limit ≤ s.now then qs.length else 0)
  -- while the clock stands, and when the background has settled
  let Inv (s' : Simulation) : Prop :=
    s'.limit = s.limit ∧ s'.patience = s.patience ∧ s.now ≤ s'.now ∧
      Crewed l log clusters (Idling settings log qs s'.now limit low) crew [] s'
  let Rest (s' : Simulation) : Prop :=
    s'.limit = s.limit ∧ s'.patience = s.patience ∧ s.now ≤ s'.now ∧
      Crewed l log clusters (fun me st => Idling settings log qs s'.now limit low' me st ∧
        Runner.ready s'.now me st = false) crew [] s'
  have hroom := h.room
  have hsettle : ∀ s', Inv s' → Rest s'.settle := by
    rintro s' ⟨hsame, hpatience, hnow, hcrew⟩
    obtain ⟨world, queue, hsettled, hcrew'⟩ := hcrew.settle
      (h.suits.restful (by omega) s'.now limit low) (by omega)
    rw [hsettled]
    refine ⟨hsame, hpatience, hnow, hcrew'.imp fun m st _ _ hst => ⟨?_, hst.2⟩⟩
    refine (hst.1.caught hst.2).mono ?_ (Nat.le_refl limit)
    change max low _ ≤ max low _
    split <;> split <;> omega
  obtain ⟨s', hrest, hnow, hwake, hrun⟩ := Sim.sleep_rests hsettle
    (fun s' ⟨_, _, _, hcrew⟩ e he time htime => hcrew.due nofun he htime)
    (fun s' time ⟨hsame, hpatience, hnow, hcrew⟩ hle => ⟨hsame, hpatience,
      Nat.le_trans hnow hle, (hcrew.passes time).imp fun _ _ _ _ hst =>
        hst.mono (Nat.le_max_left _ _) (Nat.le_refl limit)⟩)
    ⟨rfl, rfl, Nat.le_refl _, h.crewed.newTask⟩ hpos (Nat.lt_of_lt_of_le hticks (by omega)) hlimit
  refine ⟨_, hrun, rfl, hrest.1, hrest.2.1, h.suits, hrest.2.2.2.passes _, ?_⟩
  change _ ≤ s'.patience
  rw [hrest.2.1]
  exact h.room

end Sleeping

section Agreeing

variable {settings : Settings} {l : Nat} {clusters : List Cluster} {log : Log}
  {qs : List QueuedCommand} {now limit low : Nat} {crew : List Mate} {s : Simulation}
  {me : TaskId} {st : Runner.State SharedLog Workbench} {c : Nat}
  {Allows : TaskId → Runner.State SharedLog Workbench → Prop} {others : List (TaskId × Task)}

theorem lastBelow_inj {n n' : Nat} (h : lastBelow n = lastBelow n') : n = n' := by
  cases n <;> cases n' <;> cases h <;> rfl

/-- An engine that has executed the first commands has come to the offset of the last of them. -/
theorem appliedThrough_take (hqs : Runner.Smooth qs) {n : Nat} (hn : n ≤ qs.length) :
    (Engine.run {} (qs.take n)).appliedThrough = lastBelow n := by
  cases n with
  | zero => rfl
  | succ n =>
      have hq := List.getElem?_eq_getElem hn
      rw [Runner.take_next hq]
      exact Engine.appliedThrough_run_concat {} _ (hqs.sequence n _ hq)

/-- The engine of a node has executed as many of the first commands as its offset tells. -/
theorem Idling.engine (h : Idling settings log qs now limit low me st) :
    ∃ n, low ≤ n ∧ n ≤ qs.length ∧ st.executor.engine = Engine.run {} (qs.take n) ∧
      Runner.Idles settings.timing log ⟨settings.topic, commandPartition⟩ qs me now limit n st := by
  obtain ⟨n, hn, hidles⟩ := h
  obtain ⟨k, line, hrunning⟩ := hidles.running
  exact ⟨n, hn, hrunning.bound, hrunning.handled.engine, hidles⟩

theorem engine_of_mans {w : World} {n : Node} (h : w.Mans l n st) :
    n.engine w = st.executor.engine := by
  have hpost : w.posts[n.post]? = _ := h.post
  simp only [Node.engine, hpost]
  rfl

/-- The nodes agree when all have handed over everything. -/
theorem Steady.agrees (h : Steady settings l clusters log qs limit low crew s)
    (hlow : qs.length ≤ low) (hcrew : crew ≠ []) :
    View.agreement ⟨lastBelow qs.length, (crew.map Mate.node).map (Node.engine s.world)⟩ =
      some (Engine.run {} qs) := by
  have hall : ∀ m ∈ crew, m.node.engine s.world = Engine.run {} qs := by
    intro m hm
    obtain ⟨st, hmans, hst⟩ := h.crewed.mans m hm
    obtain ⟨n, hn, hbound, hengine, -⟩ := hst.engine
    rw [engine_of_mans hmans, hengine, List.take_of_length_le (by omega)]
  have htarget : (Engine.run {} qs).appliedThrough = lastBelow qs.length := by
    have happlied := appliedThrough_take h.suits.smooth (Nat.le_refl qs.length)
    rwa [List.take_length] at happlied
  cases crew with
  | nil => exact absurd rfl hcrew
  | cons m crew =>
      simp only [View.agreement, List.map_cons, hall m List.mem_cons_self]
      refine if_pos ⟨htarget, fun other hother => ?_⟩
      obtain ⟨n, hn, rfl⟩ := List.mem_map.1 hother
      obtain ⟨m', hm', rfl⟩ := List.mem_map.1 hn
      exact hall m' (List.mem_cons_of_mem _ hm')

/-- When the nodes agree, all have handed over everything. -/
theorem Steady.of_agreement (h : Steady settings l clusters log qs limit low crew s) {e : Engine}
    (hagrees : View.agreement ⟨lastBelow qs.length,
      (crew.map Mate.node).map (Node.engine s.world)⟩ = some e) :
    Steady settings l clusters log qs limit qs.length crew s := by
  have hall : ∀ m ∈ crew, (m.node.engine s.world).appliedThrough = lastBelow qs.length := by
    intro m hm
    cases crew with
    | nil => cases hm
    | cons first crew =>
        simp only [View.agreement, List.map_cons] at hagrees
        split at hagrees
        next htarget =>
          rcases List.mem_cons.1 hm with rfl | hm
          · exact htarget.1
          · rw [htarget.2 _ (List.mem_map_of_mem (List.mem_map_of_mem hm))]
            exact htarget.1
        next => cases hagrees
  refine ⟨h.suits, h.crewed.imp fun m st hm hmans hst => ?_, h.room⟩
  obtain ⟨n, -, hbound, hengine, hidles⟩ := hst.engine
  have htarget := hall m hm
  rw [engine_of_mans hmans, hengine, appliedThrough_take h.suits.smooth hbound] at htarget
  exact ⟨n, Nat.le_of_eq (lastBelow_inj htarget).symm, hidles⟩

theorem Crewed.found (h : Crewed l log clusters Allows crew others s)
    (hc : clusters[c]? = some ⟨l, settings, crew.map Mate.node⟩) :
    (find c).run.run s = (.ok ⟨l, settings, crew.map Mate.node⟩, s) :=
  run_find_of_some (h.clusters ▸ hc)

/-- The end of the log is behind the last command. -/
theorem Crewed.endOffset (h : Crewed l log clusters Allows crew others s)
    (hcarries : log.Carries ⟨settings.topic, commandPartition⟩ qs)
    (hc : clusters[c]? = some ⟨l, settings, crew.map Mate.node⟩) :
    (endOffset c).run.run s = (.ok qs.length, s) := by
  unfold Cluster.endOffset
  rw [Sim.run_bind_ok (h.found hc), Sim.run_bind_ok (Sim.run_world s), ← hcarries.length,
    Log.length_written, ← h.log]
  rfl

/-- A look at a cluster shows the end of its log and the engines of its nodes. -/
theorem Steady.look (h : Steady settings l clusters log qs limit low crew s)
    (hc : clusters[c]? = some ⟨l, settings, crew.map Mate.node⟩) :
    (look c).run.run s =
      (.ok ⟨lastBelow qs.length, (crew.map Mate.node).map (Node.engine s.world)⟩, s) := by
  unfold Cluster.look
  rw [Sim.run_bind_ok (Sim.run_world s), 
    Sim.run_bind_ok (h.crewed.endOffset h.suits.carries hc), Sim.run_bind_ok (h.crewed.found hc),
    Sim.run_pure]

/-- What a cluster comes to that has converged. -/
structure Converged (settings : Settings) (l : Nat) (clusters : List Cluster) (log : Log)
    (qs : List QueuedCommand) (limit : Nat) (crew : List Mate) (s s' : Simulation) : Prop where
  steady : Steady settings l clusters log qs limit qs.length crew s'
  after : s.now ≤ s'.now
  soon : s'.now ≤ max s.now (limit + 20)
  limit : s'.limit = s.limit
  patience : s'.patience = s.patience

/-- Until all replays have to be over the nodes may disagree, and soon after that they agree. -/
theorem Steady.convergeBy (h : Steady settings l clusters log qs limit low crew s)
    (hc : clusters[c]? = some ⟨l, settings, crew.map Mate.node⟩) (hcrew : crew ≠ [])
    (deadline looks : Nat) (hdeadline : limit + lookInterval ≤ deadline)
    (hcaught : s.now < limit + lookInterval ∨ qs.length ≤ low)
    (hlooks : limit + 2 * lookInterval ≤ s.now + lookInterval * looks)
    (hlimit : limit + 2 * lookInterval ≤ s.limit) :
    ∃ s', (convergeBy c deadline looks).run.run s = (.ok (Engine.run {} qs), s') ∧
      Converged settings l clusters log qs limit crew s s' := by
  simp only [lookInterval] at hdeadline hcaught hlooks hlimit
  -- at every look there is agreement, or not all replays had to be over at the last one
  induction looks generalizing low s with
  | zero =>
      have hlow : qs.length ≤ low := by omega
      refine ⟨s, ?_, h.mono hlow (Nat.le_refl _), Nat.le_refl _, Nat.le_max_left _ _, rfl, rfl⟩
      unfold Cluster.convergeBy
      rw [Sim.run_bind_ok (h.look hc), h.agrees hlow hcrew]
      rfl
  | succ looks ih =>
      unfold Cluster.convergeBy
      rw [Sim.run_bind_ok (h.look hc)]
      cases hagrees : View.agreement ⟨lastBelow qs.length,
          (crew.map Mate.node).map (Node.engine s.world)⟩ with
      | some e =>
          have hall := h.of_agreement hagrees
          have hsame := (hall.agrees (Nat.le_refl _) hcrew).symm.trans hagrees
          cases hsame
          exact ⟨s, rfl, hall, Nat.le_refl _, Nat.le_max_left _ _, rfl, rfl⟩
      | none =>
          have hlow : ¬ qs.length ≤ low := by
            intro hlow
            cases (h.agrees hlow hcrew).symm.trans hagrees
          have hnow : s.now < deadline := by omega
          obtain ⟨s₁, hsleep, hnow₁, hlimit₁, hpatience₁, h₁⟩ :=
            h.sleep lookInterval (by decide) (by decide) (by
              simp only [lookInterval]
              omega)
          simp only [lookInterval] at hnow₁
          obtain ⟨s₂, hrun, h₂⟩ := ih h₁ (by
            split <;> omega) (by omega) (by omega)
          refine ⟨s₂, ?_, h₂.steady, ?_, ?_, h₂.limit.trans hlimit₁, h₂.patience.trans hpatience₁⟩
          · dsimp only
            rw [Sim.run_bind_ok (Sim.run_now s), if_pos hnow, Sim.run_bind_ok hsleep]
            exact hrun
          · have := h₂.after
            omega
          · have := h₂.soon
            omega

/-- A cluster whose replays are over before long converges, on the state after all commands. -/
theorem Steady.converge (h : Steady settings l clusters log qs limit low crew s)
    (hc : clusters[c]? = some ⟨l, settings, crew.map Mate.node⟩) (hcrew : crew ≠ [])
    (timeout : Nat) (hnow : s.now ≤ limit) (htimeout : limit + 2 * lookInterval ≤ s.now + timeout)
    (hlimit : limit + 2 * lookInterval ≤ s.limit) :
    ∃ s', (converge c timeout).run.run s = (.ok (Engine.run {} qs), s') ∧
      Converged settings l clusters log qs limit crew s s' := by
  simp only [lookInterval] at htimeout hlimit
  obtain ⟨s', hrun, h'⟩ := h.convergeBy hc hcrew (s.now + timeout)
    (timeout / lookInterval + 1)
    (by simp only [lookInterval]; omega) (Or.inl (by simp only [lookInterval]; omega))
    (by simp only [lookInterval]; omega) (by simp only [lookInterval]; omega)
  refine ⟨s', ?_, h'⟩
  unfold Cluster.converge
  rw [Sim.run_bind_ok (Sim.run_now s)]
  exact hrun

end Agreeing

end Cluster
end ReplicatedLog
