import ReplicatedLog.Proofs.Cluster.Agreement

/-!
# When a cluster is seen to have converged

A node shows the offset of the last command that it has executed, and the end of the log is behind
its last entry.  The two say the same only if that entry is a command.

* `EndsInCommand`: the last entry, if there is one, is a command;
* `appliedThrough_after_iff`: just then an engine that has executed everything has come to the last
  entry;
* `Course.CaughtUp`: every node has read the whole partition and executed every command in it;
* `run_recognizes`: a cluster that has caught up is seen to have converged at once if its log ends
  in a command, and no cluster ever is while its log ends in a tombstone.
-/

namespace ReplicatedLog

section Ends

variable {schema : CommandSchema} {es : List Entry}

/-- An entry that has a command as its value. -/
def Entry.IsCommand (schema : CommandSchema) (e : Entry) : Prop :=
  (e.queued? schema 0).isSome

instance (schema : CommandSchema) (e : Entry) : Decidable (e.IsCommand schema) :=
  inferInstanceAs (Decidable (_ = true))

/-- Where an entry stands does not make it a command. -/
theorem Entry.isCommand_iff {e : Entry} (offset : Nat) :
    e.IsCommand schema ↔ ∃ q, e.queued? schema offset = some q := by
  rw [Entry.IsCommand, Option.isSome_iff_exists]
  unfold Entry.queued?
  split
  · simp
  · simp

/-- The last entry, if there is one, is a command. -/
def EndsInCommand (schema : CommandSchema) (es : List Entry) : Prop :=
  ∀ e ∈ es.getLast?, e.IsCommand schema

instance (schema : CommandSchema) (es : List Entry) : Decidable (EndsInCommand schema es) :=
  inferInstanceAs (Decidable (∀ e ∈ es.getLast?, e.IsCommand schema))

/-- An engine that has executed the commands of some entries has come to one of these. -/
theorem Engine.appliedThrough_after_lt {offset : Nat}
    (h : (Engine.after schema es).appliedThrough = some offset) : offset < es.length := by
  rw [Engine.after] at h
  rcases List.eq_nil_or_concat (commandsFrom schema 0 es) with hnil | ⟨qs, q, hlast⟩
  · rw [hnil] at h
    cases h
  · have hmem : q ∈ commandsFrom schema 0 es := by
      rw [hlast]
      simp
    obtain ⟨i, hi, hsequence⟩ := sequence_of_mem_commandsFrom hmem
    rw [hlast, List.concat_eq_append, Engine.appliedThrough_run_concat {} qs hsequence,
      Option.some.injEq] at h
    omega

/-- The engine after all commands has come to the last entry just if that is a command. -/
theorem Engine.appliedThrough_after_iff :
    (Engine.after schema es).appliedThrough = Cluster.lastBelow es.length ↔
      EndsInCommand schema es := by
  rcases List.eq_nil_or_concat es with rfl | ⟨before, e, rfl⟩
  · simp [EndsInCommand, Engine.after, commandsFrom, Engine.run, Cluster.lastBelow]
  · rw [List.concat_eq_append]
    have hlast : EndsInCommand schema (before ++ [e]) ↔ e.IsCommand schema := by
      simp [EndsInCommand]
    have htarget : Cluster.lastBelow (before ++ [e]).length = some before.length := by
      simp [Cluster.lastBelow]
    rw [hlast, htarget, Entry.isCommand_iff before.length]
    cases hq : e.queued? schema before.length with
    | some q =>
        have hafter : Engine.after schema (before ++ [e]) =
            Engine.run {} (commandsFrom schema 0 before ++ [q]) := by
          simp [Engine.after, commandsFrom_append, commandsFrom, hq]
        rw [hafter, Engine.appliedThrough_run_concat {} _ (Entry.sequence_of_queued? hq)]
        exact iff_of_true rfl ⟨q, rfl⟩
    | none =>
        have hafter : Engine.after schema (before ++ [e]) = Engine.after schema before := by
          simp [Engine.after, commandsFrom_append, commandsFrom, hq]
        rw [hafter]
        refine iff_of_false (fun happlied => ?_) (fun hsome => ?_)
        · exact absurd (Engine.appliedThrough_after_lt happlied) (Nat.lt_irrefl _)
        · obtain ⟨q, hq⟩ := hsome
          cases hq

end Ends

namespace Cluster

section Recognizing

/-- A node has read the whole partition and executed every command in it. -/
structure CaughtUpNode (w : World) (log : Nat) (settings : Channel.Settings) (n : Node) :
    Prop where
  position : (w.links.getD n.link default).reader.position
    ⟨settings.topic, Channel.commandPartition⟩ = some (entries w log settings).length
  engine : n.engine w = Engine.after .json (entries w log settings)

instance (w : World) (log : Nat) (settings : Channel.Settings) (n : Node) :
    Decidable (CaughtUpNode w log settings n) :=
  decidable_of_iff (_ ∧ _) ⟨fun h => ⟨h.1, h.2⟩, fun h => ⟨h.position, h.engine⟩⟩

/-- All nodes are there and have caught up. -/
structure Course.CaughtUp (c log : Nat) (settings : Channel.Settings) (s : Course) : Prop where
  here : s.away = none
  nodes : ∀ cluster ∈ s.simulation.world.clusters[c]?, ∀ n ∈ cluster.nodes,
    CaughtUpNode s.simulation.world log settings n

/-- When a cluster is seen to have converged. -/
structure Course.Recognizes (c log : Nat) (settings : Channel.Settings) (s : Course) : Prop where
  /-- If all nodes have caught up with a log that ends in a command, at once, and with the state
  after the whole log. -/
  prompt : s.CaughtUp c log settings →
    EndsInCommand .json (entries s.simulation.world log settings) → ∀ timeout,
      (converge c timeout).run.run s.simulation =
        (.ok (Engine.after .json (entries s.simulation.world log settings)), s.simulation)
  /-- In the end the log ends in a command. -/
  only : s.away = none → ∀ timeout e s', (converge c timeout).run.run s.simulation = (.ok e, s') →
    EndsInCommand .json (entries s'.world log settings)

variable {c log size : Nat} {settings : Channel.Settings} {nodes : List Node}
  {s s' : Simulation}

/-- Nodes that have caught up agree just if the log ends in a command. -/
theorem agreement_of_caughtUp (hnodes : nodes ≠ [])
    (h : ∀ n ∈ nodes, CaughtUpNode s.world log settings n)
    (hends : EndsInCommand .json (entries s.world log settings)) :
    View.agreement ⟨lastBelow (entries s.world log settings).length,
      nodes.map (Node.engine s.world)⟩ =
        some (Engine.after .json (entries s.world log settings)) := by
  cases nodes with
  | nil => exact absurd rfl hnodes
  | cons n nodes =>
      simp only [View.agreement, List.map_cons, (h n List.mem_cons_self).engine]
      refine if_pos ⟨Engine.appliedThrough_after_iff.2 hends, fun other hother => ?_⟩
      obtain ⟨m, hm, rfl⟩ := List.mem_map.1 hother
      exact (h m (List.mem_cons_of_mem n hm)).engine

/-- Nodes agree only on a log that ends in a command. -/
theorem Stands.endsInCommand (h : Stands c log settings nodes s) (hnodes : nodes ≠ []) {e : Engine}
    (ha : View.agreement ⟨lastBelow (entries s.world log settings).length,
      nodes.map (Node.engine s.world)⟩ = some e) :
    EndsInCommand .json (entries s.world log settings) := by
  have hafter := h.agreed hnodes ha
  cases nodes with
  | nil => exact absurd rfl hnodes
  | cons n nodes =>
      simp only [View.agreement, List.map_cons] at ha
      split at ha
      next hagree =>
        cases ha
        rw [← Engine.appliedThrough_after_iff, ← hafter]
        exact hagree.1
      next => cases ha

theorem Course.Stands.recognizes {s : Course} (h : s.Stands c log size settings)
    (hsize : size ≠ 0) :
    s.Recognizes c log settings := by
  obtain ⟨nodes, hstands, hcount⟩ := h
  have hmanned : s.away = none → nodes ≠ [] := by
    rintro haway rfl
    rw [haway] at hcount
    exact hsize hcount.symm
  constructor
  · intro hcaught hends timeout
    have hagrees := agreement_of_caughtUp (hmanned hcaught.here)
      (hcaught.nodes _ hstands.cluster) hends
    unfold converge convergeBy
    rw [Sim.run_bind_ok (Sim.run_now s.simulation), Sim.run_bind_ok (run_look hstands), hagrees]
    rfl
  · intro haway timeout e s' hrun
    obtain ⟨hstands', hagrees⟩ := hstands.agrees_of_converge timeout hrun
    exact hstands'.endsInCommand (hmanned haway) hagrees

/-- After any moves of a cluster that has been started on a log, by its nodes and by others who
append commands and tombstones: if all nodes have caught up with a log that ends in a command, the
cluster is seen at once to have converged; and it is never seen to on a log that does not end in a
command. -/
theorem run_recognizes {now limit patience : Nat} {logs : List Log} {simulation : Simulation}
    (hlog : log < logs.length)
    (hstart : (start log size settings).run.run { now, world := { logs }, limit, patience } =
      (.ok c, simulation)) (moves : List Move) :
    (run c { simulation } moves).Recognizes c log settings := by
  obtain ⟨hsize, nodes, hlen, hstands⟩ :=
    stands_of_start hlog (sound_of_logs now limit patience logs) hstart
  exact (run_stands (s := { simulation }) ⟨nodes, hstands, hlen⟩ moves).recognizes hsize

end Recognizing

section Sample

/-- The cluster of the sample stands on its log. -/
theorem sampleStart_stands : Course.Stands 0 0 2 {} { simulation := sampleStart } := by
  obtain ⟨nodes, s', hstart, hlen, hstands⟩ := start_stands (show 2 ≠ 0 by decide) {}
    (show 0 < ([{}] : List Log).length by decide) (sound_of_logs 0 10000 100 [{}])
  have hsample : sampleStart = s' := congrArg Prod.snd hstart
  exact ⟨nodes, hsample ▸ hstands, hlen⟩

/-- The cluster of the sample after all its moves. -/
def sampleCourse : Course :=
  run 0 { simulation := sampleStart } sampleMoves

/-- Both nodes have caught up with a log of one command, and are seen to. -/
theorem run_recognizes_sample :
    sampleCourse.CaughtUp 0 0 {} ∧
      EndsInCommand .json (entries sampleCourse.simulation.world 0 {}) ∧
      ∀ timeout, (converge 0 timeout).run.run sampleCourse.simulation =
        (.ok (Engine.after .json (entries sampleCourse.simulation.world 0 {})),
          sampleCourse.simulation) := by
  have hcaught : sampleCourse.CaughtUp 0 0 {} := ⟨by decide +kernel, by decide +kernel⟩
  have hends : EndsInCommand .json (entries sampleCourse.simulation.world 0 {}) := by
    decide +kernel
  obtain ⟨nodes, s', hstart, -, -⟩ := start_stands (show 2 ≠ 0 by decide) {}
    (show 0 < ([{}] : List Log).length by decide) (sound_of_logs 0 10000 100 [{}])
  have hsample : sampleStart = s' := congrArg Prod.snd hstart
  have hrecognizes : sampleCourse.Recognizes 0 0 {} := by
    rw [sampleCourse, hsample]
    exact run_recognizes (by decide) hstart sampleMoves
  exact ⟨hcaught, hends, hrecognizes.prompt hcaught hends⟩

/-- Somebody else appends a tombstone behind the command, and both nodes read it. -/
def sampleTombstone : List Move :=
  .onLog 0 (.append "_cmdlog_command_topic" (some 0)
    ⟨(JsonForm.ofId ⟨.table, "goods", .create, by decide⟩).render, none⟩) ::
  List.replicate 5 (.step 0) ++ List.replicate 5 (.step 1)

/-- The cluster of the sample after a tombstone. -/
def sampleEnd : Course :=
  run 0 sampleCourse sampleTombstone

/-- Both nodes have caught up with a log that ends in a tombstone.  They wait in vain for the
cluster to be seen to have converged, for any time in which nothing is appended. -/
theorem caughtUp_not_recognized :
    sampleEnd.CaughtUp 0 0 {} ∧
      ((converge 0 30).run.run sampleEnd.simulation).1 =
        .error (.failure "cluster did not converge on Some(1), nodes at [Some(0), Some(0)]" []) ∧
      ∀ timeout e s', (converge 0 timeout).run.run sampleEnd.simulation = (.ok e, s') →
        entries s'.world 0 {} ≠ entries sampleEnd.simulation.world 0 {} := by
  have haway : sampleEnd.away = none := by decide +kernel
  refine ⟨⟨haway, by decide +kernel⟩, by decide +kernel, fun timeout e s' hrun hsame => ?_⟩
  have hstands : sampleEnd.Stands 0 0 2 {} :=
    run_stands (run_stands sampleStart_stands sampleMoves) sampleTombstone
  have hends := (hstands.recognizes (by decide)).only haway timeout e s' hrun
  rw [hsame] at hends
  exact absurd hends (by decide +kernel)

end Sample

end Cluster
end ReplicatedLog
