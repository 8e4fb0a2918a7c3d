import ReplicatedLog.Proofs.Runner.Idling
import ReplicatedLog.Proofs.Simulation.Clock

/-!
# Turns under the clock

What the clock gives the tasks of a world, when it is known how far they go.

* `World.Mans`: a node works on one of the logs, with its link and its post in a known
  state; `World.Changes`: only that log, that link and that post have changed;
* `turn_rests` and `turn_ends`: the turn of a runner that goes on, or ends;
* `Simulation.settle_rests`: tasks that take finitely many turns settle;
* `Simulation.sleep_rests`: they settle whenever the clock has moved on.
-/

namespace ReplicatedLog

open Channel

namespace World

section Linking

/-- A link on one of the logs holds a channel with its client. -/
structure HasLink (w : World) (l i : Nat) (e : Endpoint SharedLog) : Prop where
  there : l < w.logs.length
  log : w.log l = e.client.log
  link : w.links[i]? =
    some ⟨l, e.client.schema, e.client.reader, e.client.writer, e.channel⟩

/-- Nothing has changed but one log, one link and one post. -/
structure Changes (w w' : World) (l i j : Nat) : Prop where
  logs : w'.logs = w.logs.set l (w'.log l)
  links : ∀ k, k ≠ i → w'.links[k]? = w.links[k]?
  posts : ∀ k, k ≠ j → w'.posts[k]? = w.posts[k]?
  clusters : w'.clusters = w.clusters
  results : w'.results = w.results

variable {w w' w'' : World} {l i j k : Nat} {e e' : Endpoint SharedLog} {log : Log}

theorem HasLink.get (h : w.HasLink l i e) : (World.link i).get w = e := by
  simp only [World.link, List.getD_eq_getElem?_getD, h.link, Option.getD_some, h.log]

theorem HasLink.ready (h : w.HasLink l i e) (now : Nat) (me : TaskId) (c : Call SharedLog) :
    Task.ready now me w (.onLink i c) = c.ready now me e := by
  simp only [Task.ready, h.get]

/-- A step of a call to the channel of a link. -/
theorem HasLink.step (h : w.HasLink l i e) (now : Nat) (me : TaskId) (c : Call SharedLog) :
    Task.step now me w (.onLink i c) =
      ((c.step now me e).1.map (.onLink i) Answer.ofResult,
        (World.link i).set w (c.step now me e).2) := by
  simp only [Task.step, Task.stepCall, h.get]

theorem HasLink.step_waiting (h : w.HasLink l i e) {now : Nat} {me : TaskId}
    {c c' : Call SharedLog} (hc : c.step now me e = (.waiting c', e')) :
    Task.step now me w (.onLink i c) = (.waiting (.onLink i c'), (World.link i).set w e') := by
  rw [h.step, hc]
  rfl

theorem HasLink.step_done (h : w.HasLink l i e) {now : Nat} {me : TaskId} {c : Call SharedLog}
    {result : Channel.Result} (hc : c.step now me e = (.done result, e')) :
    Task.step now me w (.onLink i c) =
      (.done (Answer.ofResult result), (World.link i).set w e') := by
  rw [h.step, hc]
  rfl

theorem set_log_self (h : l < w.logs.length) : w.logs.set l (w.log l) = w.logs := by
  rw [log, List.getD_eq_getElem?_getD, List.getElem?_eq_getElem h]
  exact List.set_getElem_self h

theorem setLog_self (h : l < w.logs.length) : w.setLog l (w.log l) = w := by
  rw [setLog, set_log_self h]

theorem Changes.refl (h : l < w.logs.length) (i j : Nat) : w.Changes w l i j :=
  ⟨(set_log_self h).symm, fun _ _ => rfl, fun _ _ => rfl, rfl, rfl⟩

theorem Changes.trans (h : w.Changes w' l i j) (h' : w'.Changes w'' l i j) :
    w.Changes w'' l i j := by
  refine ⟨?_, fun k hk => (h'.links k hk).trans (h.links k hk),
    fun k hk => (h'.posts k hk).trans (h.posts k hk), h'.clusters.trans h.clusters,
    h'.results.trans h.results⟩
  rw [h'.logs, h.logs, List.set_set]

theorem Changes.length (h : w.Changes w' l i j) : w'.logs.length = w.logs.length := by
  rw [h.logs, List.length_set]

/-- A link of another channel is still there if its log is the same. -/
theorem HasLink.changes (h : w.HasLink l i e) (hc : w.Changes w' l j k) (hi : i ≠ j)
    (hlog : w'.log l = w.log l) : w'.HasLink l i e := by
  refine ⟨?_, hlog.trans h.log, (hc.links i hi).trans h.link⟩
  rw [hc.length]
  exact h.there

theorem HasLink.set_eq (h : w.HasLink l i e) (e' : Endpoint SharedLog) :
    (World.link i).set w e' =
      { w with
        logs := w.logs.set l e'.client.log
        links := w.links.set i
          ⟨l, e.client.schema, e'.client.reader, e'.client.writer, e'.channel⟩ } := by
  simp only [World.link, setLog, List.getD_eq_getElem?_getD, h.link, Option.getD_some]

/-- A channel that has been set is on its link. -/
theorem HasLink.set (h : w.HasLink l i e) (hschema : e'.client.schema = e.client.schema) :
    ((World.link i).set w e').HasLink l i e' := by
  have hi : i < w.links.length := (List.getElem?_eq_some_iff.1 h.link).1
  rw [h.set_eq]
  refine ⟨?_, ?_, ?_⟩
  · rw [List.length_set]
    exact h.there
  · simp [World.log, List.getD_eq_getElem?_getD, h.there]
  · simp [hi, hschema]

theorem HasLink.set_changes (h : w.HasLink l i e) (e' : Endpoint SharedLog) (j : Nat) :
    w.Changes ((World.link i).set w e') l i j := by
  rw [h.set_eq]
  refine ⟨?_, fun k hk => ?_, fun _ _ => rfl, rfl, rfl⟩
  · simp [World.log, List.getD_eq_getElem?_getD, h.there]
  · simp [List.getElem?_set_ne hk.symm]

/-- Nothing but the log of a channel has changed. -/
theorem HasLink.set_log (h : w.HasLink l i e) (log : Log) :
    (World.link i).set w { e with client := { e.client with log } } = w.setLog l log := by
  rw [h.set_eq]
  have hlinks : w.links.set i
      ⟨l, e.client.schema, e.client.reader, e.client.writer, e.channel⟩ = w.links := by
    obtain ⟨hi, hlink⟩ := List.getElem?_eq_some_iff.1 h.link
    rw [← hlink]
    exact List.set_getElem_self hi
  rw [hlinks]
  rfl

theorem HasLink.set_self (h : w.HasLink l i e) : (World.link i).set w e = w := by
  have hset : (World.link i).set w e = w.setLog l e.client.log := h.set_log e.client.log
  rw [hset, ← h.log]
  exact setLog_self h.there

/-- A link is still there when its log has changed. -/
theorem HasLink.setLog (h : w.HasLink l i e) (log : Log) :
    (w.setLog l log).HasLink l i { e with client := { e.client with log } } := by
  refine ⟨?_, ?_, h.link⟩
  · rw [show (w.setLog l log).logs = w.logs.set l log from rfl, List.length_set]
    exact h.there
  · rw [log_setLog, if_pos ⟨rfl, h.there⟩]

end Linking

section Manning

/-- A runner works at the post of a node, on its link to one of the logs. -/
structure Mans (w : World) (l : Nat) (n : Node) (s : Runner.State SharedLog Workbench) : Prop where
  link : w.HasLink l n.link s.endpoint
  post : w.HasPost n.post n.link s.executor s.runner

variable {w w' : World} {l : Nat} {n n' : Node} {s s' : Runner.State SharedLog Workbench}
  {now : Nat} {me : TaskId}

/-- Two nodes share neither a link nor a post. -/
structure Apart (n n' : Node) : Prop where
  link : n.link ≠ n'.link
  post : n.post ≠ n'.post

/-- A node is still manned when another one has changed, if their log is the same. -/
theorem Mans.changes (h : w.Mans l n s) (hc : w.Changes w' l n'.link n'.post)
    (hn : Apart n n') (hlog : w'.log l = w.log l) : w'.Mans l n s :=
  ⟨h.link.changes hc hn.link hlog, (hc.posts n.post hn.post).trans h.post⟩

/-- A node is manned as long as the logs, the links and the posts are the same. -/
theorem Mans.of_eq (h : w.Mans l n s) (hlogs : w'.logs = w.logs) (hlinks : w'.links = w.links)
    (hposts : w'.posts = w.posts) : w'.Mans l n s := by
  refine ⟨⟨hlogs ▸ h.link.there, ?_, hlinks ▸ h.link.link⟩, ?_⟩
  · rw [← h.link.log]
    exact congrArg (fun logs => logs.getD l {}) hlogs
  · have hpost := h.post
    rw [HasPost, ← hposts] at hpost
    exact hpost

theorem Mans.setLog (h : w.Mans l n s) (log : Log) : (w.setLog l log).Mans l n (s.withLog log) :=
  ⟨h.link.setLog log, h.post⟩

/-- The world after a step of a runner. -/
theorem Mans.step (h : w.Mans l n s) (now : Nat) (me : TaskId) : ∃ w',
    Task.step now me w (.work n.post) =
      (match (Runner.step now me s).runner.result? with
        | some result => .done (Answer.ofRunner result)
        | none => .waiting (.work n.post), w') ∧
      w'.Mans l n (Runner.step now me s) ∧ w.Changes w' l n.link n.post := by
  obtain ⟨hj, hposted⟩ := List.getElem?_eq_some_iff.1 h.post
  have hpost : w.posts[n.post]? = _ := h.post
  have hfollows : s.endpoint.Follows (Runner.step now me s).endpoint := Runner.step_follows s
  have hset := h.link.set hfollows.schema
  have hchanges := h.link.set_changes (Runner.step now me s).endpoint n.post
  refine ⟨{ (World.link n.link).set w (Runner.step now me s).endpoint with
    posts := w.posts.set n.post
      (.link n.link (Runner.step now me s).executor (Runner.step now me s).runner) }, ?_, ?_, ?_⟩
  · simp only [Task.step, hpost, Task.stepWork, Post.step, Post.stateAt, h.link.get, Post.result?]
    cases (Runner.step now me s).runner.result? <;> rfl
  · refine ⟨⟨hset.there, hset.log, hset.link⟩, ?_⟩
    simp [HasPost, hj]
  · refine ⟨hchanges.logs, hchanges.links, fun k hk => ?_, hchanges.clusters, hchanges.results⟩
    exact List.getElem?_set_ne hk.symm

theorem Mans.ready (h : w.Mans l n s) :
    Task.ready now me w (.work n.post) = Runner.ready now me s := by
  have hpost : w.posts[n.post]? = _ := h.post
  simp only [Task.ready, hpost, Post.ready, Post.stateAt, h.link.get]

theorem Mans.due (h : w.Mans l n s) : Task.due w (.work n.post) = Runner.due s.runner := by
  have hpost : w.posts[n.post]? = _ := h.post
  simp only [Task.due, hpost]
  rfl

theorem Mans.ready_endOf (h : w.Mans l n s) :
    Task.ready now me w (.endOf n.post) = s.runner.result?.isSome := by
  have hpost : w.posts[n.post]? = _ := h.post
  simp only [Task.ready, hpost]
  rfl

/-- Who waits for the end of a runner learns what it came to. -/
theorem Mans.step_endOf (h : w.Mans l n s) {result : Except RunnerError Tally}
    (hresult : s.runner.result? = some result) :
    Task.step now me w (.endOf n.post) = (.done (Answer.ofRunner result), w) := by
  have hpost : w.posts[n.post]? = _ := h.post
  simp only [Task.step, hpost, Option.bind_some, Post.result?, hresult]
  rfl

/-- The channel of a node is interrupted. -/
theorem Mans.interrupt (h : w.Mans l n s) (now : Nat) :
    (w.interrupt now (.link n.link)).Mans l n
        { s with endpoint := s.endpoint.interrupt now } ∧
      w.Changes (w.interrupt now (.link n.link)) l n.link n.post ∧
      (w.interrupt now (.link n.link)).log l = w.log l := by
  have hset : w.interrupt now (.link n.link) =
      (World.link n.link).set w (s.endpoint.interrupt now) := by
    simp only [World.interrupt, Place.modify, h.link.get]
  have hlink : ((World.link n.link).set w (s.endpoint.interrupt now)).HasLink l n.link
      (s.endpoint.interrupt now) := h.link.set rfl
  rw [hset]
  refine ⟨⟨hlink, ?_⟩, h.link.set_changes _ _, hlink.log.trans h.link.log.symm⟩
  rw [h.link.set_eq]
  exact h.post

/-- The runner of a node is asked to stop. -/
theorem Mans.stopPost (h : w.Mans l n s) (now : Nat) :
    (w.stopPost now n.post).Mans l n (s.asked now) ∧
      w.Changes (w.stopPost now n.post) l n.link n.post ∧
      (w.stopPost now n.post).log l = w.log l := by
  obtain ⟨hj, -⟩ := List.getElem?_eq_some_iff.1 h.post
  have hpost : w.posts[n.post]? = _ := h.post
  -- the post is changed first, and then the channel is interrupted
  let posts := w.posts.set n.post (.link n.link s.executor s.runner.requestStop)
  have hasked : ({ w with posts } : World).Mans l n { s with runner := s.runner.requestStop } :=
    ⟨⟨h.link.there, h.link.log, h.link.link⟩, List.getElem?_set_self hj⟩
  have hchanged : w.Changes { w with posts } l n.link n.post :=
    ⟨(set_log_self h.link.there).symm, fun _ _ => rfl,
      fun k hk => List.getElem?_set_ne hk.symm, rfl, rfl⟩
  have hstop : w.stopPost now n.post =
      ({ w with posts } : World).interrupt now (.link n.link) := by
    simp only [World.stopPost, hpost]
    rfl
  obtain ⟨hmans, hchanges, hlog⟩ := hasked.interrupt now
  rw [hstop]
  exact ⟨hmans, hchanged.trans hchanges, hlog⟩

/-- What the turn of a runner leaves: all but its link and its post, its log too, and nobody has
been interrupted. -/
structure Spares (w w' : World) (l : Nat) (n : Node) : Prop where
  changes : w.Changes w' l n.link n.post
  log : w'.log l = w.log l
  interrupts : ∀ i, (w'.channel (.link i)).interrupts = (w.channel (.link i)).interrupts

/-- A runner that has gone on has spared the others, if it has left the log. -/
theorem Mans.spares (h : w.Mans l n s) (h' : w'.Mans l n s')
    (hc : w.Changes w' l n.link n.post) (hlog : w'.log l = w.log l)
    (hinterrupts : s'.endpoint.channel.interrupts = s.endpoint.channel.interrupts) :
    w.Spares w' l n := by
  refine ⟨hc, hlog, fun i => ?_⟩
  by_cases hi : i = n.link
  · subst hi
    simp only [World.channel, h.link.get, h'.link.get, hinterrupts]
  · simp only [World.channel, World.link, List.getD_eq_getElem?_getD, hc.links i hi]

end Manning

end World

namespace Simulation

section Turning

variable {w : World} {l : Nat} {n : Node} {s s' : Runner.State SharedLog Workbench} {now c : Nat}
  {me : TaskId}

/-- The steps that a runner takes, as part of its turn. -/
theorem turn_on (h : w.Mans l n s) (hg : Runner.Goes now me c s s') (patience : Nat) :
    ∃ w', turn now me (c + patience) (.work n.post) w = turn now me patience (.work n.post) w' ∧
      w'.Mans l n s' ∧ w.Changes w' l n.link n.post := by
  induction hg generalizing w with
  | here s => exact ⟨w, by rw [Nat.zero_add], h, .refl h.link.there _ _⟩
  | @on c s s' hready hgoes hg ih =>
      obtain ⟨w₁, hstep, h₁, hc₁⟩ := h.step now me
      obtain ⟨w₂, hturn, h₂, hc₂⟩ := ih h₁
      refine ⟨w₂, ?_, h₂, hc₁.trans hc₂⟩
      rw [← hturn, Nat.add_right_comm]
      rw [hgoes] at hstep
      simp only [turn, h.ready, hready, if_true, hstep]

/-- The turn of a runner that comes to wait. -/
theorem turn_rests (h : w.Mans l n s) (hg : Runner.Goes now me c s s')
    (hrests : Runner.ready now me s' = false) {patience : Nat} (hc : c ≤ patience) :
    ∃ w', turn now me patience (.work n.post) w = (some (.work n.post), w') ∧
      w'.Mans l n s' ∧ w.Changes w' l n.link n.post := by
  obtain ⟨rest, rfl⟩ := Nat.exists_eq_add_of_le hc
  obtain ⟨w', hturn, h', hchanges⟩ := turn_on h hg rest
  refine ⟨w', ?_, h', hchanges⟩
  rw [hturn]
  cases rest with
  | zero => rfl
  | succ rest => simp [turn, h'.ready, hrests]

/-- The turn of a runner that ends. -/
theorem turn_ends (h : w.Mans l n s) (hg : Runner.Goes now me c s s')
    (hready : Runner.ready now me s' = true) {result : Except RunnerError Tally}
    (hresult : (Runner.step now me s').runner.result? = some result) {patience : Nat}
    (hc : c < patience) :
    ∃ w', turn now me patience (.work n.post) w = (none, keep me (Answer.ofRunner result) w') ∧
      w'.Mans l n (Runner.step now me s') ∧ w.Changes w' l n.link n.post := by
  obtain ⟨rest, rfl⟩ := Nat.exists_eq_add_of_lt hc
  obtain ⟨w₁, hturn, h₁, hc₁⟩ := turn_on h hg (rest + 1)
  obtain ⟨w₂, hstep, h₂, hc₂⟩ := h₁.step now me
  rw [hresult] at hstep
  refine ⟨w₂, ?_, h₂, hc₁.trans hc₂⟩
  rw [Nat.add_assoc, hturn]
  simp only [turn, h₁.ready, hready, if_true, hstep]

variable {t t' : Task} {w' : World} {result : Except Problem Answer} {patience : Nat}

/-- The turn of a task that takes one step and then has to wait. -/
theorem turn_once (hready : t.ready now me w = true) (hstep : t.step now me w = (.waiting t', w'))
    (hwaits : t'.ready now me w' = false) (hp : 0 < patience) :
    turn now me patience t w = (some t', w') := by
  obtain ⟨rest, rfl⟩ := Nat.exists_eq_succ_of_ne_zero (Nat.ne_of_gt hp)
  simp only [turn, hready, if_true, hstep]
  cases rest with
  | zero => rfl
  | succ rest => simp [turn, hwaits]

/-- The turn of a task that ends at once. -/
theorem turn_done (hready : t.ready now me w = true) (hstep : t.step now me w = (.done result, w'))
    (hp : 0 < patience) : turn now me patience t w = (none, keep me result w') := by
  obtain ⟨rest, rfl⟩ := Nat.exists_eq_succ_of_ne_zero (Nat.ne_of_gt hp)
  simp only [turn, hready, if_true, hstep]

end Turning

section Foreground

variable {s : Simulation} {me : TaskId} {t t' : Task} {w : World}
  {result : Except Problem Answer}

/-- A task in the foreground takes a step that does not end it. -/
theorem runWithin_waiting (hready : t.ready s.now me s.world = true)
    (hstep : t.step s.now me s.world = (.waiting t', w)) (patience : Nat) :
    runWithin me (patience + 1) t s = runWithin me patience t' { s with world := w } := by
  rw [runWithin]
  simp only [hready, if_true, hstep]

/-- A task in the foreground comes to its end. -/
theorem runWithin_done (hready : t.ready s.now me s.world = true)
    (hstep : t.step s.now me s.world = (.done result, w)) (patience : Nat) :
    runWithin me (patience + 1) t s = (result, { s with world := w }) := by
  rw [runWithin]
  simp only [hready, if_true, hstep]

/-- A task in the foreground has to wait until the background has settled. -/
theorem runWithin_settled (hwaits : t.ready s.now me s.world = false)
    (hready : t.ready s.settle.now me s.settle.world = true) (patience : Nat) :
    runWithin me (patience + 1) t s = runWithin me patience t s.settle := by
  rw [runWithin]
  simp only [hwaits, hready, if_true, Bool.false_eq_true, if_false]

end Foreground

section Settling

variable {s : Simulation} {me : TaskId} {t : Task}

/-- A queue in which every task has a number of its own is that task and the others. -/
theorem perm_others {queue : List (TaskId × Task)} (hd : (queue.map Prod.fst).Nodup)
    (h : (me, t) ∈ queue) :
    queue.Perm ((me, t) :: queue.filter fun other => other.1 != me) := by
  obtain ⟨before, behind, rfl⟩ := List.append_of_mem h
  rw [List.map_append, List.map_cons, List.perm_middle.nodup_iff, List.nodup_cons,
    List.mem_append, not_or] at hd
  obtain ⟨⟨hbefore, hbehind⟩, -⟩ := hd
  have hself : ∀ {es : List (TaskId × Task)}, me ∉ es.map Prod.fst →
      es.filter (fun other => other.1 != me) = es := by
    intro es hes
    refine List.filter_eq_self.2 fun e he => bne_iff_ne.2 fun heq => hes ?_
    exact heq ▸ List.mem_map_of_mem he
  rw [List.filter_append, List.filter_cons_of_neg (by simp), hself hbefore, hself hbehind]
  exact List.perm_middle

theorem not_ready_of_nextReady (h : s.nextReady = none) :
    ∀ e ∈ s.queue, e.2.ready s.now e.1 s.world = false := by
  intro e he
  exact Bool.eq_false_iff.2 (List.find?_eq_none.1 h e he)

theorem ready_of_nextReady {e : TaskId × Task} (h : s.nextReady = some e) :
    e ∈ s.queue ∧ e.2.ready s.now e.1 s.world = true := by
  have hready := List.find?_some h
  exact ⟨List.mem_of_find?_eq_some h, hready⟩

/-- If every turn of a task that can go on leaves fewer turns to take, the background settles. -/
theorem settle_rests {Inv : Nat → Simulation → Prop}
    (hturn : ∀ n s me t, Inv n s → (me, t) ∈ s.queue → t.ready s.now me s.world = true →
      ∃ n' < n, Inv n' (s.giveTurn me t))
    {n : Nat} (h : Inv n s) (hn : n ≤ s.patience) :
    (∃ n', Inv n' s.settle) ∧
      ∀ e ∈ s.settle.queue, e.2.ready s.settle.now e.1 s.settle.world = false := by
  have hwithin : ∀ (patience n : Nat) (s : Simulation), Inv n s → n ≤ patience →
      (∃ n', Inv n' (settleWithin patience s)) ∧
        (settleWithin patience s).nextReady = none := by
    intro patience n s h hn
    induction patience generalizing n s with
    | zero =>
        refine ⟨⟨n, h⟩, ?_⟩
        cases hnext : s.nextReady with
        | none => exact hnext
        | some e =>
            obtain ⟨hmem, hready⟩ := ready_of_nextReady hnext
            obtain ⟨n', hless, -⟩ := hturn n s e.1 e.2 h hmem hready
            omega
    | succ patience ih =>
        unfold settleWithin
        cases hnext : s.nextReady with
        | none => exact ⟨⟨n, h⟩, hnext⟩
        | some e =>
            obtain ⟨hmem, hready⟩ := ready_of_nextReady hnext
            obtain ⟨n', hless, h'⟩ := hturn n s e.1 e.2 h hmem hready
            exact ih n' _ h' (by omega)
  obtain ⟨hinv, hnone⟩ := hwithin s.patience n s h hn
  exact ⟨hinv, not_ready_of_nextReady hnone⟩

theorem giveTurn_frame (s : Simulation) (me : TaskId) (t : Task) :
    ∃ world queue, s.giveTurn me t = { s with world, queue } := by
  unfold giveTurn
  dsimp only
  split <;> exact ⟨_, _, rfl⟩

/-- Nothing but the world and the queue changes when the background settles. -/
theorem settle_frame (s : Simulation) :
    ∃ world queue, s.settle = { s with world, queue } := by
  have hwithin : ∀ (patience : Nat) (s : Simulation),
      ∃ world queue, settleWithin patience s = { s with world, queue } := by
    intro patience s
    induction patience generalizing s with
    | zero => exact ⟨_, _, rfl⟩
    | succ patience ih =>
        unfold settleWithin
        split
        next me t _ =>
          obtain ⟨world, queue, hturn⟩ := giveTurn_frame s me t
          rw [hturn]
          exact ih _
        next => exact ⟨_, _, rfl⟩
  exact hwithin s.patience s

end Settling

section Sleeping

variable {s : Simulation} {wake : Nat}

/-- While nobody can go on before a time, the clock moves on to it, or to a time before. -/
theorem nextDue_sleep (hnow : s.now < wake)
    (hdue : ∀ e ∈ s.queue, ∀ time, e.2.due s.world = some time → s.now < time) :
    ∃ time, s.nextDue (.sleep wake) = some time ∧ s.now < time ∧ time ≤ wake := by
  have hmem : wake ∈ (Task.sleep wake :: s.queue.map Prod.snd).filterMap (Task.due s.world) := by
    simp [Task.due]
  cases hnext : s.nextDue (.sleep wake) with
  | none =>
      rw [nextDue, List.min?_eq_none_iff] at hnext
      rw [hnext] at hmem
      cases hmem
  | some time =>
      obtain ⟨hin, hleast⟩ := List.min?_eq_some_iff.1 hnext
      refine ⟨time, rfl, ?_, hleast wake hmem⟩
      obtain ⟨t, ht, htime⟩ := List.mem_filterMap.1 hin
      rcases List.mem_cons.1 ht with rfl | ht
      · cases htime
        exact hnow
      · obtain ⟨e, he, rfl⟩ := List.mem_map.1 ht
        exact hdue e he time htime

/-- Before the clock comes to a time, the background has settled whenever it moved on. -/
theorem runWithin_sleep {Inv Rest : Simulation → Prop}
    (hsettle : ∀ s, Inv s → Rest s.settle)
    (hdue : ∀ s, Rest s → ∀ e ∈ s.queue, ∀ time, e.2.due s.world = some time → s.now < time)
    (hlater : ∀ s time, Rest s → s.now ≤ time → Inv { s with now := time })
    (h : Inv s) (hnow : s.now < wake) (hlimit : wake ≤ s.limit) (me : TaskId)
    {patience : Nat} (hp : wake - s.now < patience) :
    ∃ s', Rest s' ∧ s.now ≤ s'.now ∧ s'.now < wake ∧
      runWithin me patience (.sleep wake) s = (.ok .nothing, { s' with now := wake }) := by
  induction patience generalizing s with
  | zero => omega
  | succ patience ih =>
      have hrest := hsettle s h
      obtain ⟨world, queue, hframe⟩ := settle_frame s
      have hnow' : s.settle.now = s.now := by rw [hframe]
      have hlimit' : s.settle.limit = s.limit := by rw [hframe]
      have hasleep : ∀ {now : Nat} (w : World), now < wake →
          (Task.sleep wake).ready now me w = false := fun w hlt =>
        decide_eq_false (Nat.not_le.2 hlt)
      obtain ⟨time, hnext, hlt, hle⟩ :=
        nextDue_sleep (s := s.settle) (hnow' ▸ hnow) (hdue _ hrest)
      have hfound : (s.settle.nextDue (.sleep wake)).filter (· ≤ s.settle.limit) = some time := by
        rw [hnext, Option.filter_some, if_pos (decide_eq_true (by omega))]
      have hmoves : runWithin me (patience + 1) (.sleep wake) s =
          runWithin me patience (.sleep wake) { s.settle with now := time } := by
        rw [runWithin]
        simp only [hasleep s.world hnow, hasleep s.settle.world (hnow' ▸ hnow), hfound,
          Bool.false_eq_true, if_false, Nat.max_eq_right (Nat.le_of_lt hlt)]
      rw [hmoves]
      rcases Nat.lt_or_eq_of_le hle with hbefore | rfl
      · obtain ⟨s', hrest', hnow'', hwake, hrun⟩ :=
          ih (hlater _ time hrest (Nat.le_of_lt hlt)) hbefore (hlimit' ▸ hlimit) (by
            change wake - time < patience
            omega)
        have hpassed : time ≤ s'.now := hnow''
        exact ⟨s', hrest', by omega, hwake, hrun⟩
      · refine ⟨s.settle, hrest, Nat.le_of_eq hnow'.symm, hnow' ▸ hnow, ?_⟩
        obtain ⟨rest, rfl⟩ : ∃ rest, patience = rest + 1 := ⟨patience - 1, by omega⟩
        simp [runWithin, Task.ready, Task.step]

end Sleeping

end Simulation

/-- While somebody sleeps the background has settled whenever the clock has moved on. -/
theorem Sim.sleep_rests {Inv Rest : Simulation → Prop}
    (hsettle : ∀ s, Inv s → Rest s.settle)
    (hdue : ∀ s, Rest s → ∀ e ∈ s.queue, ∀ time, e.2.due s.world = some time → s.now < time)
    (hlater : ∀ s time, Rest s → s.now ≤ time → Inv { s with now := time })
    {s : Simulation} (h : Inv s.newTask.2) {ticks : Nat} (hpos : 0 < ticks)
    (hticks : ticks < s.patience) (hlimit : s.now + ticks ≤ s.limit) :
    ∃ s', Rest s' ∧ s.now ≤ s'.now ∧ s'.now < s.now + ticks ∧
      (Sim.sleep ticks).run.run s = (.ok (), { s' with now := s.now + ticks }) := by
  have hbefore : s.newTask.2.now < s.now + ticks := Nat.lt_add_of_pos_right hpos
  have hless : s.now + ticks - s.newTask.2.now < s.patience := by
    change s.now + ticks - s.now < s.patience
    omega
  obtain ⟨s', hrest, hnow, hwake, hrun⟩ :=
    Simulation.runWithin_sleep hsettle hdue hlater h hbefore hlimit s.nextTask hless
  refine ⟨s', hrest, hnow, hwake, ?_⟩
  unfold Sim.sleep
  rw [Sim.run_bind_ok (Sim.run_now s), Sim.run_bind_ok ((Sim.run_await _ s).trans hrun)]
  rfl

end ReplicatedLog
