import ReplicatedLog.Proofs.Simulation.Turns

/-!
# The crew of a cluster

The nodes of a cluster with the tasks of their runners, in the background of a
simulation.  No runner is disturbed by the turns of the others.

* `Cluster.Crewed`: the tasks in the background are those of a crew, each of its runners
  in a known state, and some others;
* `Crewed.giveTurn`: the turn of a runner, and `Crewed.errand` the last turn of another
  task;
* `Stage.Leads.settle`: the crew settles while another task takes a turn of its own.
-/

namespace ReplicatedLog
namespace Cluster

open Channel

/-- A node with the task of its runner. -/
structure Mate where
  node : Node
  task : TaskId

/-- The task of a runner in the background. -/
def Mate.entry (m : Mate) : TaskId × Task :=
  (m.task, .work m.node.post)

section Crews

/-- The tasks in the background are those of a crew and some others.  The runners of the crew are at
work on one log, each in a state that its task allows. -/
structure Crewed (l : Nat) (log : Log) (clusters : List Cluster)
    (Allows : TaskId → Runner.State SharedLog Workbench → Prop) (crew : List Mate)
    (others : List (TaskId × Task)) (s : Simulation) : Prop where
  there : l < s.world.logs.length
  log : s.world.log l = log
  clusters : s.world.clusters = clusters
  queue : s.queue.Perm (others ++ crew.map Mate.entry)
  tasks : (s.queue.map Prod.fst).Nodup
  fresh : ∀ e ∈ s.queue, e.1 < s.nextTask
  apart : crew.Pairwise fun m m' => World.Apart m.node m'.node
  mans : ∀ m ∈ crew, ∃ st, s.world.Mans l m.node st ∧ Allows m.task st

/-- The runners of a crew that have reason to go on. -/
def eager (crew : List Mate) (now : Nat) (w : World) : Nat :=
  crew.countP fun m => (Task.work m.node.post).ready now m.task w

variable {l : Nat} {log : Log} {clusters : List Cluster}
  {Allows Allows' : TaskId → Runner.State SharedLog Workbench → Prop} {crew : List Mate}
  {others : List (TaskId × Task)} {s : Simulation} {m m' : Mate}

theorem eager_le (crew : List Mate) (now : Nat) (w : World) : eager crew now w ≤ crew.length :=
  List.countP_le_length

/-- A runner that is allowed more. -/
theorem Crewed.imp (h : Crewed l log clusters Allows crew others s)
    (hall : ∀ m st, m ∈ crew → s.world.Mans l m.node st → Allows m.task st → Allows' m.task st) :
    Crewed l log clusters Allows' crew others s := by
  refine ⟨h.there, h.log, h.clusters, h.queue, h.tasks, h.fresh, h.apart, fun m hm => ?_⟩
  obtain ⟨st, hmans, hst⟩ := h.mans m hm
  exact ⟨st, hmans, hall m st hm hmans hst⟩

theorem Crewed.later (h : Crewed l log clusters Allows crew others s) (now : Nat) :
    Crewed l log clusters Allows crew others { s with now } :=
  ⟨h.there, h.log, h.clusters, h.queue, h.tasks, h.fresh, h.apart, h.mans⟩

theorem Crewed.newTask (h : Crewed l log clusters Allows crew others s) :
    Crewed l log clusters Allows crew others s.newTask.2 :=
  ⟨h.there, h.log, h.clusters, h.queue, h.tasks,
    fun e he => Nat.lt_succ_of_lt (h.fresh e he), h.apart, h.mans⟩

theorem Crewed.mem_queue (h : Crewed l log clusters Allows crew others s) {e : TaskId × Task} :
    e ∈ s.queue ↔ e ∈ others ∨ ∃ m ∈ crew, m.entry = e := by
  rw [h.queue.mem_iff, List.mem_append, List.mem_map]

/-- A mate shares neither a link nor a post with the others. -/
theorem Crewed.split (h : Crewed l log clusters Allows crew others s) (hm : m ∈ crew) :
    ∃ before behind, crew = before ++ m :: behind ∧
      ∀ m' ∈ before ++ behind, m' ∈ crew ∧ World.Apart m'.node m.node := by
  obtain ⟨before, behind, rfl⟩ := List.append_of_mem hm
  obtain ⟨-, hbehind, hbefore⟩ := List.pairwise_append.1 h.apart
  refine ⟨before, behind, rfl, fun m' hm' => ?_⟩
  rcases List.mem_append.1 hm' with hm' | hm'
  · exact ⟨List.mem_append_left _ hm', hbefore m' hm' m List.mem_cons_self⟩
  · have happart := (List.pairwise_cons.1 hbehind).1 m' hm'
    exact ⟨List.mem_append_right _ (List.mem_cons_of_mem _ hm'),
      ⟨happart.link.symm, happart.post.symm⟩⟩

/-- A runner does not know of a change elsewhere that leaves the log. -/
theorem Crewed.mans_changed (h : Crewed l log clusters Allows crew others s) {w : World} {n : Node}
    (hc : s.world.Changes w l n.link n.post) (hlog : w.log l = log) (hm : m ∈ crew)
    (hn : World.Apart m.node n) :
    (∃ st, w.Mans l m.node st ∧ Allows m.task st) ∧
      (Task.work m.node.post).ready s.now m.task w =
        (Task.work m.node.post).ready s.now m.task s.world := by
  obtain ⟨st, hmans, hst⟩ := h.mans m hm
  have hmans' := hmans.changes hc hn (hlog.trans h.log.symm)
  exact ⟨⟨st, hmans', hst⟩, by rw [hmans.ready, hmans'.ready]⟩

/-- A crew does not know of a change elsewhere that leaves the log. -/
theorem Crewed.elsewhere (h : Crewed l log clusters Allows crew others s) {w : World} {n : Node}
    (hc : s.world.Changes w l n.link n.post) (hlog : w.log l = log)
    (hn : ∀ m ∈ crew, World.Apart m.node n) :
    Crewed l log clusters Allows crew others { s with world := w } :=
  ⟨hc.length ▸ h.there, hlog, hc.clusters.trans h.clusters, h.queue, h.tasks, h.fresh, h.apart,
    fun m hm => (h.mans_changed hc hlog hm (hn m hm)).1⟩

/-- A mate is in another state that is allowed, with nothing else changed. -/
theorem Crewed.replace (h : Crewed l log clusters Allows crew others s) {w : World}
    {st : Runner.State SharedLog Workbench} (hm : m ∈ crew)
    (hc : s.world.Changes w l m.node.link m.node.post) (hlog : w.log l = log)
    (hmans : w.Mans l m.node st) (hst : Allows m.task st) :
    Crewed l log clusters Allows crew others { s with world := w } := by
  obtain ⟨before, behind, hcrew, happart⟩ := h.split hm
  refine ⟨hc.length ▸ h.there, hlog, hc.clusters.trans h.clusters, h.queue, h.tasks, h.fresh,
    h.apart, fun m' hm' => ?_⟩
  have hothers := fun m' hm' => (h.mans_changed hc hlog (happart m' hm').1 (happart m' hm').2).1
  rw [hcrew, List.mem_append, List.mem_cons] at hm'
  rcases hm' with hm' | rfl | hm'
  · exact hothers m' (List.mem_append_left _ hm')
  · exact ⟨st, hmans, hst⟩
  · exact hothers m' (List.mem_append_right _ hm')

/-- The order of the queue does not matter. -/
theorem Crewed.requeue (h : Crewed l log clusters Allows crew others s)
    {queue : List (TaskId × Task)} (hqueue : queue.Perm s.queue) :
    Crewed l log clusters Allows crew others { s with queue } :=
  ⟨h.there, h.log, h.clusters, hqueue.trans h.queue, (hqueue.map _).nodup_iff.2 h.tasks,
    fun e he => h.fresh e (hqueue.mem_iff.1 he), h.apart, h.mans⟩

/-- The task of a mate may be counted among the others. -/
theorem Crewed.dismiss (h : Crewed l log clusters Allows (m :: crew) [] s) :
    Crewed l log clusters Allows crew [m.entry] s :=
  ⟨h.there, h.log, h.clusters, h.queue, h.tasks, h.fresh, h.apart.of_cons,
    fun m' hm' => h.mans m' (List.mem_cons_of_mem _ hm')⟩

theorem Crewed.apart_first (h : Crewed l log clusters Allows (m :: crew) others s) :
    ∀ m' ∈ crew, World.Apart m'.node m.node := by
  intro m' hm'
  have happart := (List.pairwise_cons.1 h.apart).1 m' hm'
  exact ⟨happart.link.symm, happart.post.symm⟩

end Crews

section Turns

/-- Runners that have reason to go on come to wait, within some patience, and leave the log. -/
structure Restful (now patience : Nat) (log : Log)
    (Allows : TaskId → Runner.State SharedLog Workbench → Prop) : Prop where
  log : ∀ me st, Allows me st → st.endpoint.client.log = log
  turn : ∀ me st, Allows me st → Runner.ready now me st = true →
    ∃ c st', c ≤ patience ∧ Runner.Goes now me c st st' ∧ Allows me st' ∧
      Runner.ready now me st' = false

variable {l : Nat} {log : Log} {clusters : List Cluster}
  {Allows : TaskId → Runner.State SharedLog Workbench → Prop} {crew : List Mate}
  {others : List (TaskId × Task)} {s : Simulation} {m : Mate}

/-- A mate that has reason to go on comes to wait; nobody else is disturbed. -/
theorem Crewed.giveTurn (h : Crewed l log clusters Allows crew others s)
    (hrestful : Restful s.now s.patience log Allows) (hm : m ∈ crew)
    (hready : (Task.work m.node.post).ready s.now m.task s.world = true) :
    ∃ world queue, s.giveTurn m.task (.work m.node.post) = { s with world, queue } ∧
      Crewed l log clusters Allows crew others { s with world, queue } ∧
      eager crew s.now world < eager crew s.now s.world ∧ s.world.Spares world l m.node := by
  obtain ⟨st, hmans, hst⟩ := h.mans m hm
  rw [hmans.ready] at hready
  obtain ⟨c, st', hc, hgoes, hst', hrests⟩ := hrestful.turn m.task st hst hready
  obtain ⟨w, hturn, hmans', hchanges⟩ := Simulation.turn_rests hmans hgoes hrests hc
  have hlog : w.log l = log := hmans'.link.log.trans (hrestful.log _ _ hst')
  have hmem : m.entry ∈ s.queue := h.mem_queue.2 (Or.inr ⟨m, hm, rfl⟩)
  have hperm : ((s.queue.filter fun other => other.1 != m.task) ++ [m.entry]).Perm s.queue :=
    (List.perm_append_singleton _ _).trans (Simulation.perm_others h.tasks hmem).symm
  refine ⟨w, _, ?_, (h.replace hm hchanges hlog hmans' hst').requeue hperm, ?_,
    hmans.spares hmans' hchanges (hlog.trans h.log.symm) hgoes.interrupts⟩
  · simp only [Simulation.giveTurn, hturn]
    rfl
  · obtain ⟨before, behind, hcrew, happart⟩ := h.split hm
    have hcount : ∀ (es : List Mate), (∀ m' ∈ es, m' ∈ before ++ behind) →
        eager es s.now w = eager es s.now s.world := fun es hes =>
      List.countP_congr fun m' hm' => by
        obtain ⟨hin, hapart⟩ := happart m' (hes m' hm')
        rw [(h.mans_changed hchanges hlog hin hapart).2]
    have hbefore := hcount before fun _ => List.mem_append_left _
    have hbehind := hcount behind fun _ => List.mem_append_right _
    simp only [eager] at hbefore hbehind ⊢
    rw [hcrew, List.countP_append, List.countP_append, List.countP_cons, List.countP_cons,
      hmans'.ready, hmans.ready, hready, hrests, hbefore, hbehind]
    simp

/-- Another task comes to its end; no mate is disturbed. -/
theorem Crewed.errand {me : TaskId} {t : Task} {result : Except Problem Answer} {w : World}
    (h : Crewed l log clusters Allows crew ((me, t) :: others) s)
    (hturn : Simulation.turn s.now me s.patience t s.world =
      (none, Simulation.keep me result w))
    (hlogs : w.logs = s.world.logs) (hclusters : w.clusters = s.world.clusters)
    (hmans : ∀ m ∈ crew, ∀ st, s.world.Mans l m.node st → w.Mans l m.node st) :
    ∃ queue, s.giveTurn me t = { s with world := Simulation.keep me result w, queue } ∧
      Crewed l log clusters Allows crew others
        { s with world := Simulation.keep me result w, queue } ∧
      eager crew s.now (Simulation.keep me result w) = eager crew s.now s.world := by
  have hmem : (me, t) ∈ s.queue := h.mem_queue.2 (Or.inl List.mem_cons_self)
  have hperm := Simulation.perm_others h.tasks hmem
  have hkept : ∀ m ∈ crew, ∀ st, s.world.Mans l m.node st →
      (Simulation.keep me result w).Mans l m.node st := fun m hm st hst =>
    (hmans m hm st hst).of_eq rfl rfl rfl
  refine ⟨_, ?_, ⟨?_, ?_, hclusters.trans h.clusters, (hperm.symm.trans h.queue).cons_inv,
    ?_, fun e he => h.fresh e (List.mem_filter.1 he).1, h.apart, fun m hm => ?_⟩, ?_⟩
  · simp only [Simulation.giveTurn, hturn]
  · exact hlogs ▸ h.there
  · rw [← h.log]
    exact congrArg (fun logs => logs.getD l {}) hlogs
  · exact ((hperm.map Prod.fst).nodup_iff.1 h.tasks).of_cons
  · obtain ⟨st, hst, hallows⟩ := h.mans m hm
    exact ⟨st, hkept m hm st hst, hallows⟩
  · refine List.countP_congr fun m hm => ?_
    obtain ⟨st, hst, -⟩ := h.mans m hm
    rw [hst.ready, (hkept m hm st hst).ready]

/-- A crew in a background where nobody has reason to go on. -/
theorem Crewed.rests (h : Crewed l log clusters Allows crew others s)
    (hrests : ∀ e ∈ s.queue, e.2.ready s.now e.1 s.world = false) :
    Crewed l log clusters
      (fun me st => Allows me st ∧ Runner.ready s.now me st = false) crew others s := by
  refine h.imp fun m st hm hmans hst => ⟨hst, ?_⟩
  rw [← hmans.ready]
  exact hrests m.entry (h.mem_queue.2 (Or.inr ⟨m, hm, rfl⟩))

end Turns

section Settling

/-- What is known of the background while its crew settles: the log, what the runners are allowed,
the other tasks, and something about the world that the runners spare. -/
structure Stage where
  log : Log
  Allows : TaskId → Runner.State SharedLog Workbench → Prop
  others : List (TaskId × Task) := []
  Holds : World → Prop := fun _ => True

/-- A simulation is in a stage. -/
structure Stage.On (g : Stage) (l : Nat) (clusters : List Cluster) (crew : List Mate)
    (s : Simulation) : Prop where
  crewed : Crewed l g.log clusters g.Allows crew g.others s
  holds : g.Holds s.world

/-- The turns of the crew do not end a stage. -/
structure Stage.Lasts (g : Stage) (l : Nat) (crew : List Mate) (now patience : Nat) : Prop where
  restful : Restful now patience g.log g.Allows
  spared : ∀ m ∈ crew, ∀ w w' : World, w.Spares w' l m.node → g.Holds w → g.Holds w'

/-- The stage in which nobody of the crew has reason to go on. -/
def Stage.resting (g : Stage) (now : Nat) : Stage :=
  { g with Allows := fun me st => g.Allows me st ∧ Runner.ready now me st = false }

/-- From one stage the turn of any other task leads to a second stage, in which no other task has
reason to go on.  It gives reason to so many of the crew at most. -/
structure Stage.Leads (g g' : Stage) (l : Nat) (clusters : List Cluster) (crew : List Mate)
    (more : Nat) (s : Simulation) : Prop where
  before : g.Lasts l crew s.now s.patience
  after : g'.Lasts l crew s.now s.patience
  turn : ∀ world queue, g.On l clusters crew { s with world, queue } → ∀ e ∈ g.others,
    e.2.ready s.now e.1 world = true → ∃ world' queue',
      Simulation.giveTurn { s with world, queue } e.1 e.2 =
        { s with world := world', queue := queue' } ∧
      g'.On l clusters crew { s with world := world', queue := queue' } ∧
      eager crew s.now world' ≤ eager crew s.now world + more
  rests : ∀ world queue, g'.On l clusters crew { s with world, queue } → ∀ e ∈ g'.others,
    e.2.ready s.now e.1 world = false

variable {g g' : Stage} {l more : Nat} {clusters : List Cluster} {crew : List Mate}
  {s : Simulation} {m : Mate}

/-- The turn of a mate does not end a stage. -/
theorem Stage.On.giveTurn (h : g.On l clusters crew s) (hg : g.Lasts l crew s.now s.patience)
    (hm : m ∈ crew) (hready : (Task.work m.node.post).ready s.now m.task s.world = true) :
    ∃ world queue, s.giveTurn m.task (.work m.node.post) = { s with world, queue } ∧
      g.On l clusters crew { s with world, queue } ∧
      eager crew s.now world < eager crew s.now s.world := by
  obtain ⟨world, queue, hgiven, hcrew, hless, hspares⟩ := h.crewed.giveTurn hg.restful hm hready
  exact ⟨world, queue, hgiven, ⟨hcrew, hg.spared m hm _ _ hspares h.holds⟩, hless⟩

theorem Stage.On.rests (h : g.On l clusters crew s)
    (hrests : ∀ e ∈ s.queue, e.2.ready s.now e.1 s.world = false) :
    (g.resting s.now).On l clusters crew s :=
  ⟨h.crewed.rests hrests, h.holds⟩

/-- The background settles in one of two stages, in the second one if it is in it, or if another
task has reason to go on. -/
theorem Stage.Leads.settle (hleads : g.Leads g' l clusters crew more s)
    (h : g.On l clusters crew s ∨ g'.On l clusters crew s)
    (hp : crew.length + more + 1 ≤ s.patience) :
    ∃ world queue, s.settle = { s with world, queue } ∧
      (((g.resting s.now).On l clusters crew { s with world, queue } ∧
          ∀ e ∈ g.others, e.2.ready s.now e.1 world = false) ∨
        (g'.resting s.now).On l clusters crew { s with world, queue }) := by
  let Inv (n : Nat) (s' : Simulation) : Prop :=
    ∃ world queue, s' = { s with world, queue } ∧
      ((g.On l clusters crew s' ∧ eager crew s.now world + more + 1 ≤ n) ∨
        (g'.On l clusters crew s' ∧ eager crew s.now world ≤ n))
  have hturn : ∀ n s' me t, Inv n s' → (me, t) ∈ s'.queue →
      t.ready s'.now me s'.world = true → ∃ n' < n, Inv n' (s'.giveTurn me t) := by
    rintro n _ me t ⟨world, queue, rfl, ⟨h', hn⟩ | ⟨h', hn⟩⟩ hmem hready
    · obtain hother | ⟨m, hm, hentry⟩ := h'.crewed.mem_queue.1 hmem
      · obtain ⟨w, q, hgiven, h'', hle⟩ := hleads.turn world queue h' (me, t) hother hready
        exact ⟨eager crew s.now w, by omega, w, q, hgiven, Or.inr ⟨hgiven ▸ h'', Nat.le_refl _⟩⟩
      · cases hentry
        obtain ⟨w, q, hgiven, h'', hless⟩ := h'.giveTurn hleads.before hm hready
        dsimp only at hless
        exact ⟨eager crew s.now w + more + 1, by omega, w, q, hgiven,
          Or.inl ⟨hgiven ▸ h'', Nat.le_refl _⟩⟩
    · obtain hother | ⟨m, hm, hentry⟩ := h'.crewed.mem_queue.1 hmem
      · cases hready.symm.trans (hleads.rests world queue h' (me, t) hother)
      · cases hentry
        obtain ⟨w, q, hgiven, h'', hless⟩ := h'.giveTurn hleads.after hm hready
        exact ⟨_, Nat.lt_of_lt_of_le hless hn, w, q, hgiven,
          Or.inr ⟨hgiven ▸ h'', Nat.le_refl _⟩⟩
  have hbound := eager_le crew s.now s.world
  have hstart : Inv (crew.length + more + 1) s :=
    ⟨_, _, rfl, h.imp (fun h => ⟨h, by omega⟩) fun h => ⟨h, by omega⟩⟩
  obtain ⟨⟨n, world, queue, hsettle, hcases⟩, hrests⟩ := Simulation.settle_rests hturn hstart hp
  rw [hsettle] at hcases hrests
  refine ⟨world, queue, hsettle, hcases.imp (fun h' => ⟨h'.1.rests hrests, fun e he => ?_⟩)
    fun h' => h'.1.rests hrests⟩
  exact hrests e (h'.1.crewed.mem_queue.2 (Or.inl he))

/-- The background settles while no other task has reason to go on. -/
theorem Stage.On.settle (h : g.On l clusters crew s) (hg : g.Lasts l crew s.now s.patience)
    (hrests : ∀ world queue, g.On l clusters crew { s with world, queue } → ∀ e ∈ g.others,
      e.2.ready s.now e.1 world = false)
    (hp : crew.length + 1 ≤ s.patience) :
    ∃ world queue, s.settle = { s with world, queue } ∧
      (g.resting s.now).On l clusters crew { s with world, queue } := by
  have hleads : g.Leads g l clusters crew 0 s := by
    refine ⟨hg, hg, fun world queue h' e he hready => ?_, hrests⟩
    cases hready.symm.trans (hrests world queue h' e he)
  obtain ⟨world, queue, hsettle, ⟨h', -⟩ | h'⟩ := hleads.settle (Or.inr h) hp
  · exact ⟨world, queue, hsettle, h'⟩
  · exact ⟨world, queue, hsettle, h'⟩

variable {log : Log} {Allows : TaskId → Runner.State SharedLog Workbench → Prop}

/-- A crew that is left alone settles. -/
theorem Crewed.settle (h : Crewed l log clusters Allows crew [] s)
    (hrestful : Restful s.now s.patience log Allows) (hp : crew.length + 1 ≤ s.patience) :
    ∃ world queue, s.settle = { s with world, queue } ∧
      Crewed l log clusters (fun me st => Allows me st ∧ Runner.ready s.now me st = false) crew []
        { s with world, queue } := by
  let g : Stage := { log, Allows }
  have hon : g.On l clusters crew s := ⟨h, trivial⟩
  obtain ⟨world, queue, hsettle, h'⟩ :=
    hon.settle ⟨hrestful, fun _ _ _ _ _ _ => trivial⟩
      (fun _ _ _ e he => absurd he List.not_mem_nil) hp
  exact ⟨world, queue, hsettle, h'.crewed⟩

/-- A crew settles while the runner of another node, at work on the same log, comes to its end. -/
theorem Crewed.settle_leaver (h : Crewed l log clusters Allows crew [m.entry] s)
    (hrestful : Restful s.now s.patience log Allows) (hp : crew.length + 1 ≤ s.patience)
    (happart : ∀ m' ∈ crew, World.Apart m'.node m.node)
    {st st' : Runner.State SharedLog Workbench} {c : Nat} {result : Except RunnerError Tally}
    (hmans : s.world.Mans l m.node st) (hgoes : Runner.Goes s.now m.task c st st')
    (hc : c < s.patience) (hready : Runner.ready s.now m.task st' = true)
    (hresult : (Runner.step s.now m.task st').runner.result? = some result)
    (hlog : (Runner.step s.now m.task st').endpoint.client.log = log) :
    ∃ world queue, s.settle = { s with world, queue } ∧
      Crewed l log clusters (fun me st => Allows me st ∧ Runner.ready s.now me st = false) crew []
        { s with world, queue } ∧
      world.Mans l m.node (Runner.step s.now m.task st') := by
  have hstarts : Runner.ready s.now m.task st = true := by
    cases hgoes with
    | here => exact hready
    | on hfirst => exact hfirst
  -- the runner has yet to take its turn, or has ended
  let g : Stage := { log, Allows, others := [m.entry], Holds := fun w => w.Mans l m.node st }
  let g' : Stage :=
    { log, Allows, Holds := fun w => w.Mans l m.node (Runner.step s.now m.task st') }
  have hspared : ∀ m' ∈ crew, ∀ (w w' : World) (st : Runner.State SharedLog Workbench),
      w.Spares w' l m'.node → w.Mans l m.node st → w'.Mans l m.node st :=
    fun m' hm' w w' st hspares hst => hst.changes hspares.changes
      ⟨(happart m' hm').link.symm, (happart m' hm').post.symm⟩ hspares.log
  have hleads : g.Leads g' l clusters crew 0 s := by
    refine ⟨⟨hrestful, fun m' hm' w w' => hspared m' hm' w w' _⟩,
      ⟨hrestful, fun m' hm' w w' => hspared m' hm' w w' _⟩, ?_,
      fun _ _ _ e he => absurd he List.not_mem_nil⟩
    rintro world queue ⟨h', hm'⟩ e he -
    cases List.mem_singleton.1 he
    obtain ⟨w, hends, hended, hchanges⟩ := Simulation.turn_ends hm' hgoes hready hresult hc
    have hsame : w.log l = world.log l := (hended.link.log.trans hlog).trans h'.log.symm
    have hlogs : w.logs = world.logs := by
      rw [hchanges.logs, hsame, World.set_log_self h'.there]
    obtain ⟨q, hgiven, h'', heager⟩ := h'.errand hends hlogs hchanges.clusters
      fun m'' hin st'' hst => hst.changes hchanges (happart m'' hin) hsame
    exact ⟨_, q, hgiven, ⟨h'', hended.of_eq rfl rfl rfl⟩, Nat.le_of_eq heager⟩
  obtain ⟨world, queue, hsettle, ⟨h', hwaits⟩ | h'⟩ := hleads.settle (Or.inl ⟨h, hmans⟩) hp
  · have hgo := h'.holds.ready.trans hstarts
    cases hgo.symm.trans (hwaits _ List.mem_cons_self)
  · exact ⟨world, queue, hsettle, h'.crewed, h'.holds⟩

end Settling

end Cluster
end ReplicatedLog
