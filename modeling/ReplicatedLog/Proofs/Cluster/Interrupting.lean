import ReplicatedLog.Proofs.Cluster.Operating

/-!
# A send that is interrupted

A command is sent through a node of a steady cluster while the log holds its
acknowledgments back, and then the channel of the node is interrupted.

* `Cluster.Sending`: such a send, with the stages that the background of the cluster goes
  through, and `Sending.Held`: what is known of the log before and after it;
* `Held.sleep`: while somebody sleeps the command is appended, and the send waits;
* `Held.interrupt` and `Held.await`: the interruption cancels the send, and the cluster is
  steady again, with the command in its log.
-/

namespace ReplicatedLog
namespace Cluster

open Channel

section Errands

variable {l : Nat} {clusters : List Cluster} {log log' : Log}
  {Allows Allows' : TaskId → Runner.State SharedLog Workbench → Prop} {crew : List Mate}
  {others : List (TaskId × Task)} {s : Simulation} {me : TaskId} {t t' : Task}

/-- A task joins the background of a crew. -/
theorem Crewed.spawn (h : Crewed l log clusters Allows crew [] s) (t : Task) :
    Crewed l log clusters Allows crew [(s.nextTask, t)]
      { s with queue := s.queue ++ [(s.nextTask, t)], nextTask := s.nextTask + 1 } := by
  have hqueue := List.perm_append_singleton (s.nextTask, t) s.queue
  refine ⟨h.there, h.log, h.clusters, hqueue.trans (h.queue.cons _), ?_, fun e he => ?_, h.apart,
    h.mans⟩
  · refine (hqueue.map Prod.fst).nodup_iff.2 (List.nodup_cons.2 ⟨fun hmem => ?_, h.tasks⟩)
    obtain ⟨e, he, heq⟩ := List.mem_map.1 hmem
    exact Nat.ne_of_lt (h.fresh e he) heq
  · rcases List.mem_cons.1 (hqueue.mem_iff.1 he) with rfl | he
    · exact Nat.lt_succ_self _
    · exact Nat.lt_succ_of_lt (h.fresh e he)

/-- Another task changes the log, and then has to wait. -/
theorem Crewed.errand_waits (h : Crewed l log clusters Allows crew ((me, t) :: others) s)
    (hturn : Simulation.turn s.now me s.patience t s.world =
      (some t', s.world.setLog l log'))
    (hall : ∀ me st, Allows me st → Allows' me (st.withLog log')) :
    ∃ queue, s.giveTurn me t = { s with world := s.world.setLog l log', queue } ∧
      Crewed l log' clusters Allows' crew ((me, t') :: others)
        { s with world := s.world.setLog l log', queue } := by
  have hmem : (me, t) ∈ s.queue := h.mem_queue.2 (Or.inl List.mem_cons_self)
  have hperm := Simulation.perm_others h.tasks hmem
  have hqueue := List.perm_append_singleton (me, t')
    (s.queue.filter fun other => other.1 != me)
  have h' := h.setLog log' hall
  refine ⟨(s.queue.filter fun other => other.1 != me) ++ [(me, t')], ?_,
    ⟨h'.there, h'.log, h'.clusters, hqueue.trans ?_, ?_, fun e he => ?_, h'.apart, h'.mans⟩⟩
  · simp only [Simulation.giveTurn, hturn]
  · exact (hperm.symm.trans h.queue).cons_inv.cons _
  · exact ((hqueue.map Prod.fst).trans (hperm.symm.map Prod.fst)).nodup_iff.2 h.tasks
  · rcases List.mem_cons.1 (hqueue.mem_iff.1 he) with rfl | he
    · exact h.fresh (me, t) hmem
    · exact h.fresh e (List.mem_filter.1 he).1

end Errands

section Stirring

/-- A runner idles, or will after a step that it has reason to take. -/
def Stirring (settings : Settings) (log : Log) (qs : List QueuedCommand) (now limit low : Nat)
    (me : TaskId) (st : Runner.State SharedLog Workbench) : Prop :=
  st.endpoint.client.log = log ∧
    ∃ n st', n ≤ 1 ∧ Runner.Goes now me n st st' ∧ Idling settings log qs now limit low me st'

variable {settings : Settings} {log : Log} {qs : List QueuedCommand}
  {now patience limit low : Nat} {me : TaskId} {st : Runner.State SharedLog Workbench}

theorem Idling.stirring (h : Idling settings log qs now limit low me st) :
    Stirring settings log qs now limit low me st :=
  ⟨h.log_eq, 0, st, Nat.zero_le 1, .here _, h⟩

/-- A runner that stirs without reason to go on idles. -/
theorem Stirring.idling (h : Stirring settings log qs now limit low me st)
    (hrests : Runner.ready now me st = false) : Idling settings log qs now limit low me st := by
  obtain ⟨-, n, st', -, hgoes, hst'⟩ := h
  cases hgoes with
  | here => exact hst'
  | on hready => cases hready.symm.trans hrests

/-- Runners that stir come to wait as well. -/
theorem Suits.restful_stirring (h : Suits settings log qs)
    (hp : 9 * qs.length + 30 ≤ patience) (now limit low : Nat) :
    Restful now patience log (Stirring settings log qs now limit low) := by
  have hrestful : Restful now (patience - 1) log (Idling settings log qs now limit low) :=
    h.restful (by omega) now limit low
  refine ⟨fun me st hst => hst.1, ?_⟩
  rintro me st ⟨-, n, st', hn, hgoes, hst'⟩ -
  cases hready : Runner.ready now me st' with
  | false => exact ⟨n, st', by omega, hgoes, hst'.stirring, hready⟩
  | true =>
      obtain ⟨n', st'', hn', hgoes', hst'', hrests⟩ := hrestful.turn me st' hst' hready
      exact ⟨n + n', st'', by omega, hgoes.trans hgoes', hst''.stirring, hrests⟩

end Stirring

section Stages

/-- A send through one of the nodes of a cluster, while acknowledgments are held back. -/
structure Sending where
  settings : Settings
  /-- The log before the command is appended, and the commands that it carries. -/
  log : Log
  qs : List QueuedCommand
  id : CommandId
  command : Command
  task : TaskId
  /-- The channel, how often it had been interrupted, and what tasks had brought. -/
  link : Nat
  interrupts : Nat
  results : List (TaskId × Except Problem Answer)
  /-- The time by which all replays are over. -/
  limit : Nat

/-- What has happened to the channel of a send. -/
structure Heard (link interrupts : Nat) (results : List (TaskId × Except Problem Answer))
    (w : World) : Prop where
  interrupts : (w.channel (.link link)).interrupts = interrupts
  results : w.results = results

namespace Sending

variable (d : Sending) (now : Nat)

/-- The log after the command has been appended. -/
def log' : Log :=
  (({} : Writer).send CommandSchema.json d.log d.settings.topic (some 0) d.id (some d.command)).2

/-- The commands with this one. -/
def qs' : List QueuedCommand :=
  d.qs ++ [⟨d.id, d.command, some d.qs.length⟩]

/-- The send when it has been appended. -/
def sent : Task :=
  .onLink d.link (.sent (.ack d.log.ledger.size) d.interrupts)

/-- The send has done nothing yet. -/
def entering : Stage where
  log := d.log
  Allows := Idling d.settings d.log d.qs now d.limit 0
  others := [(d.task, .onLink d.link (.entered (.send d.id d.command)))]
  Holds := Heard d.link d.interrupts d.results

/-- The send waits for its acknowledgment. -/
def waiting : Stage where
  log := d.log'
  Allows := Idling d.settings d.log' d.qs' now d.limit 0
  others := [(d.task, d.sent)]
  Holds := Heard d.link d.interrupts d.results

/-- The channel has been interrupted. -/
def stirred : Stage where
  log := d.log'
  Allows := Stirring d.settings d.log' d.qs' now d.limit 0
  others := [(d.task, d.sent)]
  Holds := Heard d.link (d.interrupts + 1) d.results

/-- The send has been cancelled. -/
def cancelled : Stage where
  log := d.log'
  Allows := Stirring d.settings d.log' d.qs' now d.limit 0
  Holds w := w.results = (d.task, .error (.channel .interrupted)) :: d.results

/-- The log before and after the command, while acknowledgments are held back. -/
structure Held : Prop where
  before : Suits d.settings d.log d.qs
  after : Suits d.settings d.log' d.qs'
  sends : ({} : Writer).send CommandSchema.json d.log d.settings.topic (some 0) d.id
    (some d.command) = (.ack d.log.ledger.size, d.log')
  appends : d.log'.appends = d.log.appends + 1
  outcome : d.log'.outcome (.ack d.log.ledger.size) = none

variable {d}

theorem held_of_suits (h : Suits d.settings d.log d.qs) (hholding : d.log.isHolding = true)
    (hqs : Runner.Smooth d.qs') : d.Held := by
  obtain ⟨log, hsend, hcarries, happends, -, houtcome⟩ := h.carries.send d.id d.command
  obtain rfl : d.log' = log := congrArg Prod.snd hsend
  rw [hholding] at houtcome
  exact ⟨h, ⟨hcarries, hqs, h.patient⟩, hsend, happends, houtcome⟩

end Sending

variable {d : Sending} {l interrupts now : Nat} {clusters : List Cluster} {crew : List Mate}
  {s : Simulation} {m : Mate} {w w' : World} {n : Node}
  {results : List (TaskId × Except Problem Answer)}
  {st : Runner.State SharedLog Workbench}

theorem Heard.spares (h : Heard d.link interrupts results w) (hw : w.Spares w' l n) :
    Heard d.link interrupts results w' :=
  ⟨(hw.interrupts d.link).trans h.interrupts, hw.changes.results.trans h.results⟩

namespace Sending
namespace Held

section Steps

variable (h : d.Held) (hn : n.link = d.link)

include h hn

/-- A send that waits goes on when its channel has been interrupted. -/
theorem sent_ready (hmans : w.Mans l n st) (hlog : st.endpoint.client.log = d.log')
    (hheard : Heard d.link interrupts results w) (now : Nat) :
    d.sent.ready now d.task w = decide (interrupts ≠ d.interrupts) := by
  have hinterrupts : st.endpoint.channel.interrupts = interrupts := by
    rw [← hheard.interrupts, ← hn]
    simp only [World.channel, hmans.link.get]
  have houtcome :
      Client.outcome now st.endpoint.client (Log.Wait.ack d.log.ledger.size) = none := by
    simp only [Client.outcome, hlog, h.outcome]
  rw [sent, ← hn, hmans.link.ready]
  simp only [Call.ready, houtcome, hinterrupts, Option.isSome_none, Bool.false_or]

/-- A send whose channel has been interrupted is cancelled. -/
theorem step_interrupted (hmans : w.Mans l n st) (hlog : st.endpoint.client.log = d.log')
    (hheard : Heard d.link (d.interrupts + 1) results w) (now : Nat) :
    d.sent.step now d.task w = (.done (.error (.channel .interrupted)), w) := by
  have hinterrupts : st.endpoint.channel.interrupts ≠ d.interrupts := by
    have hmore := hheard.interrupts
    rw [← hn] at hmore
    simp only [World.channel, hmans.link.get] at hmore
    omega
  have houtcome :
      Client.outcome now st.endpoint.client (Log.Wait.ack d.log.ledger.size) = none := by
    simp only [Client.outcome, hlog, h.outcome]
  have hcall : Call.step now d.task st.endpoint
      (.sent (Log.Wait.ack d.log.ledger.size) d.interrupts) =
        (.done (.error .interrupted), st.endpoint) := by
    simp only [Call.step, Call.awaitAck, houtcome]
    rw [if_pos hinterrupts]
  rw [sent, ← hn, hmans.link.step_done hcall, hmans.link.set_self]
  rfl

end Steps

/-- While a send waits its crew settles. -/
theorem waiting_lasts (h : d.Held) {patience : Nat} (hp : 9 * d.qs'.length + 20 ≤ patience)
    (now : Nat) : (d.waiting now).Lasts l crew now patience :=
  ⟨h.after.restful hp _ _ _, fun _ _ _ _ hw hheard => hheard.spares hw⟩

section Going

variable (h : d.Held) (hm : m ∈ crew) (hlink : m.node.link = d.link)

include h hm hlink

/-- A send that waits has no reason to go on. -/
theorem rests (hon : (d.waiting now).On l clusters crew s) :
    ∀ e ∈ (d.waiting now).others, e.2.ready s.now e.1 s.world = false := by
  intro e he
  cases List.mem_singleton.1 he
  obtain ⟨st, hmans, hst⟩ := hon.crewed.mans m hm
  rw [h.sent_ready hlink hmans hst.log_eq hon.holds]
  exact decide_eq_false fun hne => hne rfl

/-- A send that has its turn appends its command, and waits. -/
theorem enters (hroom : 9 * d.qs'.length + 20 ≤ s.patience)
    (hlimit : s.now + Runner.patience d.settings.timing true ≤ d.limit) :
    (d.entering s.now).Leads (d.waiting s.now) l clusters crew crew.length s := by
  have hlength : d.qs'.length = d.qs.length + 1 := by
    rw [qs', List.length_append, List.length_singleton]
  refine ⟨⟨h.before.restful (by omega) _ _ _, fun _ _ _ _ hw hheard => hheard.spares hw⟩,
    h.waiting_lasts hroom s.now, ?_, fun world queue hon => h.rests hm hlink hon⟩
  rintro world queue ⟨hcrew, hheard⟩ e he hready
  cases List.mem_singleton.1 he
  obtain ⟨st, hmans, ⟨k, -, hidles⟩⟩ := hcrew.mans m hm
  obtain ⟨n, line, hrunning⟩ := hidles.running
  have hinterrupts : st.endpoint.channel.interrupts = d.interrupts := by
    rw [← hheard.interrupts, ← hlink]
    simp only [World.channel, hmans.link.get]
  have hstep := step_send hmans.link hrunning.place h.sends s.now d.task
  rw [hinterrupts, hlink] at hstep
  have hheard' : Heard d.link d.interrupts d.results (world.setLog l d.log') :=
    ⟨hheard.interrupts, hheard.results⟩
  have hwaits : d.sent.ready s.now d.task (world.setLog l d.log') = false := by
    rw [h.sent_ready hlink (hmans.setLog d.log') rfl hheard']
    exact decide_eq_false fun hne => hne rfl
  have hturn := Simulation.turn_once hready hstep hwaits (Nat.lt_of_lt_of_le (by omega) hroom)
  have hall : ∀ me st, Idling d.settings d.log d.qs s.now d.limit 0 me st →
      Idling d.settings d.log' d.qs' s.now d.limit 0 me (st.withLog d.log') := by
    rintro me st ⟨k, hk, hidles⟩
    exact ⟨k, hk, hidles.withLog h.appends (Nat.le_refl _) fun _ => hlimit⟩
  obtain ⟨q, hgiven, hcrew'⟩ := hcrew.errand_waits hturn hall
  exact ⟨_, q, hgiven, ⟨hcrew', hheard'⟩, Nat.le_trans (eager_le _ _ _) (Nat.le_add_left _ _)⟩

/-- While somebody sleeps the command is appended, and the send waits. -/
theorem sleep (hroom : 9 * d.qs'.length + 2 * crew.length + 40 ≤ s.patience)
    (hlimit : s.now + Runner.patience d.settings.timing true ≤ d.limit)
    (hon : (d.entering s.now).On l clusters crew s) {ticks : Nat} (hpos : 0 < ticks)
    (hticks : ticks < 40) (hlater : s.now + ticks ≤ s.limit) :
    ∃ s', (Sim.sleep ticks).run.run s = (.ok (), { s' with now := s.now + ticks }) ∧
      ((d.waiting s'.now).resting s'.now).On l clusters crew s' ∧
      s'.limit = s.limit ∧ s'.patience = s.patience := by
  -- until the background has settled the clock stands, and from then on the send waits
  let Same (s' : Simulation) : Prop := s'.limit = s.limit ∧ s'.patience = s.patience
  let Inv (s' : Simulation) : Prop :=
    Same s' ∧ ((s'.now = s.now ∧ (d.entering s'.now).On l clusters crew s') ∨
      (d.waiting s'.now).On l clusters crew s')
  let Rest (s' : Simulation) : Prop :=
    Same s' ∧ ((d.waiting s'.now).resting s'.now).On l clusters crew s'
  have hsettle : ∀ s', Inv s' → Rest s'.settle := by
    rintro s' ⟨⟨hsame, hpatience⟩, ⟨hnow, hon'⟩ | hon'⟩
    · have hleads : (d.entering s'.now).Leads (d.waiting s'.now) l clusters crew crew.length s' :=
        h.enters hm hlink (by omega) (by omega)
      obtain ⟨world, queue, hsettled, ⟨-, hwaits⟩ | hwaiting⟩ :=
        hleads.settle (Or.inl hon') (by omega)
      · cases hwaits _ List.mem_cons_self
      · rw [hsettled]
        exact ⟨⟨hsame, hpatience⟩, hwaiting⟩
    · obtain ⟨world, queue, hsettled, hwaiting⟩ := hon'.settle
        (h.waiting_lasts (by omega) s'.now) (fun world queue hon => h.rests hm hlink hon) (by omega)
      rw [hsettled]
      exact ⟨⟨hsame, hpatience⟩, hwaiting⟩
  have hdue : ∀ s', Rest s' → ∀ e ∈ s'.queue, ∀ time, e.2.due s'.world = some time →
      s'.now < time := by
    rintro s' ⟨-, hwaiting⟩ e he time htime
    refine hwaiting.crewed.due (fun e he => ?_) he htime
    cases List.mem_singleton.1 he
    rfl
  have hpasses : ∀ s' time, Rest s' → s'.now ≤ time → Inv { s' with now := time } :=
    fun s' time ⟨hsame, hwaiting⟩ _ =>
      ⟨hsame, Or.inr ⟨hwaiting.crewed.passes time, hwaiting.holds⟩⟩
  obtain ⟨s', ⟨hsame, hwaiting⟩, -, -, hrun⟩ := Sim.sleep_rests hsettle hdue hpasses
    ⟨⟨rfl, rfl⟩, Or.inl ⟨rfl, hon.crewed.newTask, hon.holds⟩⟩ hpos (by omega) hlater
  exact ⟨s', hrun, hwaiting, hsame⟩

/-- The channel of a send that waits is interrupted. -/
theorem interrupt (hon : ((d.waiting s.now).resting s.now).On l clusters crew s) {time : Nat}
    (hlimit : time + Runner.patience d.settings.timing true ≤ d.limit) :
    (d.stirred time).On l clusters crew
      { s with now := time, world := s.world.interrupt time (.link d.link) } := by
  obtain ⟨st, hmans, ⟨k, hk, hidles⟩, hrests⟩ := hon.crewed.mans m hm
  obtain ⟨hmans', hchanges, hlog⟩ := hmans.interrupt time
  obtain ⟨st', hgoes, hidles'⟩ := hidles.stirred hrests h.after.carries hlimit time
  have hcrew : Crewed l d.log' clusters (Stirring d.settings d.log' d.qs' time d.limit 0) crew
      [(d.task, d.sent)] { s with now := time } :=
    (hon.crewed.passes time).imp fun _ _ _ _ hst => hst.stirring
  have hsame : st.endpoint.client.log = d.log' := hmans.link.log.symm.trans hon.crewed.log
  rw [← hlink]
  refine ⟨hcrew.replace hm hchanges (hlog.trans hon.crewed.log) hmans'
    ⟨hsame, 1, st', Nat.le_refl 1, hgoes, k, hk, hidles'⟩, ?_,
    hchanges.results.trans hon.holds.results⟩
  have hbefore := hon.holds.interrupts
  rw [← hlink] at hbefore ⊢
  simp only [World.channel, hmans.link.get] at hbefore
  simp only [World.channel, hmans'.link.get, Endpoint.interrupt, hbefore]

/-- A send that has its turn after the interruption is cancelled. -/
theorem cancels (hroom : 9 * d.qs'.length + 30 ≤ s.patience) :
    (d.stirred s.now).Leads (d.cancelled s.now) l clusters crew 0 s := by
  refine ⟨⟨h.after.restful_stirring hroom _ _ _, fun _ _ _ _ hw hheard => hheard.spares hw⟩,
    ⟨h.after.restful_stirring hroom _ _ _, fun _ _ _ _ hw hresults =>
      hw.changes.results.trans hresults⟩, ?_, nofun⟩
  rintro world queue ⟨hcrew, hheard⟩ e he hready
  cases List.mem_singleton.1 he
  obtain ⟨st, hmans, hst⟩ := hcrew.mans m hm
  have hturn := Simulation.turn_done hready
    (h.step_interrupted hlink hmans hst.1 hheard s.now) (Nat.lt_of_lt_of_le (by omega) hroom)
  obtain ⟨q, hgiven, hcrew', heager⟩ := hcrew.errand hturn rfl rfl fun _ _ _ hst => hst
  exact ⟨_, q, hgiven, ⟨hcrew', congrArg _ hheard.results⟩, Nat.le_of_eq heager⟩

/-- Who awaits the send learns that it has been interrupted, and the cluster is steady. -/
theorem await (hroom : 9 * d.qs'.length + crew.length + 40 ≤ s.patience)
    (hon : (d.stirred s.now).On l clusters crew s) (hnew : d.results.lookup d.task = none) :
    ∃ s', (Sim.await (.resultOf d.task)).run.run s = (.error (.channel .interrupted), s') ∧
      Steady d.settings l clusters d.log' d.qs' d.limit 0 crew s' ∧ AtOnce s s' := by
  have hleads : (d.stirred s.now).Leads (d.cancelled s.now) l clusters crew 0 s.newTask.2 :=
    h.cancels (s := s.newTask.2) hm hlink (Nat.le_trans (by omega) hroom)
  obtain ⟨world, queue, hsettled, ⟨hon', hwaits⟩ | hon'⟩ :=
    hleads.settle (Or.inl ⟨hon.crewed.newTask, hon.holds⟩) (Nat.le_trans (by omega) hroom)
  · have hrests := hwaits _ List.mem_cons_self
    obtain ⟨st, hmans, hst, -⟩ := hon'.crewed.mans m hm
    rw [h.sent_ready hlink hmans hst.1 hon'.holds] at hrests
    exact absurd (Nat.succ_ne_self _) (of_decide_eq_false hrests)
  let s' : Simulation := { s.newTask.2 with world, queue }
  have hbrought : s'.world.results.lookup d.task = some (.error (.channel .interrupted)) := by
    have hresults : s'.world.results = _ := hon'.holds
    rw [hresults]
    exact List.lookup_cons_self
  have hasleep : (Task.resultOf d.task).ready s.newTask.2.now s.nextTask s.newTask.2.world =
      false := by
    have hresults : s.newTask.2.world.results = d.results := hon.holds.results
    simp only [Task.ready, hresults, hnew, Option.isSome_none]
  have hready : (Task.resultOf d.task).ready s'.now s.nextTask s'.world = true := by
    simp only [Task.ready, hbrought, Option.isSome_some]
  have hstep : (Task.resultOf d.task).step s'.now s.nextTask s'.world =
      (.done (.error (.channel .interrupted)), s'.world) := by
    simp only [Task.step, Task.orWait, hbrought]
    rfl
  obtain ⟨patience, hpatience⟩ : ∃ patience, s.patience = patience + 2 :=
    ⟨s.patience - 2, by omega⟩
  have hcrew : Crewed l d.log' clusters
      (Idling d.settings d.log' d.qs' s.now d.limit 0) crew [] s' :=
    hon'.crewed.imp fun _ _ _ _ hst => hst.1.idling hst.2
  refine ⟨s', ?_, ⟨h.after, hcrew, hroom⟩, ⟨rfl, rfl, rfl⟩⟩
  rw [Sim.run_await, hpatience]
  refine (Simulation.runWithin_settled hasleep (hsettled.symm ▸ hready) _).trans ?_
  rw [hsettled]
  exact Simulation.runWithin_done hready hstep _

end Going

end Held
end Sending

end Stages

end Cluster
end ReplicatedLog
