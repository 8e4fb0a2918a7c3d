import ReplicatedLog.Cluster.Engine
import ReplicatedLog.Proofs.Channel.Traffic
import ReplicatedLog.Proofs.Runner.Delivery

/-!
# A runner among others

A runner is at work on a channel, and nobody else polls it.  All else can happen
in between its steps: others append to the log and hold acknowledgments back, tasks
send and shut the channel down, it is interrupted, the runner is asked to stop, and
its executor is changed from elsewhere.

* `Scene` is the traffic on the channel with the runner and its executor, and
  `Scene.run` makes any moves in their order;
* `Traffic.perform_keeps`: a quiet move leaves the reader in its place;
* `Scene.Sound` says what the runner has handed over and that its tally counts it,
  and `Sound.perform`: every move keeps that.

A step of the runner, like one of a call, is all that is done between two points at
which it waits.  Others come between its steps, and not within one.
-/

namespace ReplicatedLog

open Channel

namespace Traffic

section Quiet

/-- A move that makes no request to poll. -/
def Move.IsQuiet : Move → Prop
  | .enter r => r.IsQuiet
  | _ => True

/-- No request in progress is to poll. -/
def Quiet (t : Traffic) : Prop :=
  ∀ id k, t.tickets id = some k → k.request.IsQuiet

variable {t : Traffic} {m : Move}

/-- A quiet move leaves quiet traffic quiet. -/
theorem Quiet.perform (h : t.Quiet) (hm : m.IsQuiet) : (t.perform m).Quiet := by
  intro id k' hk'
  cases m with
  | enter r =>
      rcases put_cases hk' with ⟨-, hnew⟩ | ⟨-, hold⟩
      · cases hnew
        exact hm
      · exact h id k' hold
  | step task now =>
      simp only [Traffic.perform] at hk'
      split at hk'
      next k hk =>
        rcases advance_tickets hk' with ⟨-, hr, -⟩ | ⟨-, hold⟩
        · rw [hr]
          exact h task k hk
        · exact h id k' hold
      next => exact h id k' hk'
  | abandon task =>
      simp only [Traffic.perform] at hk'
      split at hk'
      · rcases put_cases hk' with ⟨-, hnew⟩ | ⟨-, hold⟩
        · cases hnew
        · exact h id k' hold
      · exact h id k' hk'
  | interrupt now => exact h id k' hk'
  | onLog op => exact h id k' hk'

/-- A move on quiet traffic leaves the reader in its place. -/
theorem perform_keeps (hs : t.Serving) (h : t.Quiet) (m : Move) :
    t.endpoint.Keeps (t.perform m).endpoint := by
  cases m with
  | enter r => exact .refl _
  | step task now =>
      simp only [Traffic.perform]
      split
      next k hk =>
        exact Call.step_keeps now task t.endpoint
          ((hs task k hk).not_movesReader (h task k hk) t.endpoint task)
      next => exact .refl _
  | abandon task =>
      simp only [Traffic.perform]
      split
      · exact Endpoint.keeps_leave _ task
      · exact .refl _
  | interrupt now => exact Endpoint.keeps_interrupt _ now
  | onLog op => exact Endpoint.keeps_onLog _ op

end Quiet

end Traffic

/-- A channel with its traffic and a runner at work on it. -/
structure Scene (ε : Type) where
  traffic : Traffic
  executor : Recorder ε
  runner : Runner SharedLog
  /-- The task of the runner. -/
  task : TaskId

namespace Scene

variable {ε : Type}

section Moves

/-- What can happen on a scene. -/
inductive Move (ε : Type)
  /-- Something happens on the channel or to the log. -/
  | others (m : Traffic.Move) (h : m.IsQuiet)
  /-- The runner takes a step. -/
  | work (now : Nat)
  /-- The runner is asked to stop. -/
  | stop (now : Nat)
  /-- The executor is changed from elsewhere. -/
  | sway (x : ε)

/-- A runner is set to work on a channel. -/
def start (t : Traffic) (timing : Timing) (x : ε) : Scene ε where
  traffic := { t with next := t.next + 1 }
  executor := { inner := x }
  runner := { timing }
  task := t.next

variable [Executor ε]

/-- The runner with its channel and its executor. -/
def state (s : Scene ε) : Runner.State SharedLog (Recorder ε) :=
  ⟨s.traffic.endpoint, s.executor, s.runner⟩

/-- The scene after a step of its runner. -/
def work (s : Scene ε) (now : Nat) : Scene ε :=
  let after := Runner.step now s.task s.state
  { s with
    traffic := { s.traffic with endpoint := after.endpoint }
    executor := after.executor
    runner := after.runner }

/-- The scene after a move. -/
def perform (s : Scene ε) : Move ε → Scene ε
  | .others m _ => { s with traffic := s.traffic.perform m }
  | .work now => s.work now
  | .stop now =>
      { s with
        traffic := s.traffic.perform (.interrupt now)
        runner := s.runner.requestStop }
  | .sway x => { s with executor := { s.executor with inner := x } }

/-- The scene after moves. -/
def run (s : Scene ε) (moves : List (Move ε)) : Scene ε :=
  moves.foldl perform s

end Moves

section Keeping

/-- What holds of a scene with a runner that nobody else disturbs in its polls. -/
structure Sound (s : Scene ε) : Prop where
  serving : s.traffic.Serving
  quiet : s.traffic.Quiet
  delivers : s.runner.phase.Delivers s.traffic.endpoint s.executor.handed
  counted : s.runner.Counted s.executor.notes

theorem sound_start {t : Traffic} (h : t.Sound) (hq : t.Quiet) (timing : Timing) (x : ε) :
    (start t timing x).Sound :=
  ⟨h.serving, hq, ⟨rfl, h.reads.reader⟩, ⟨.zero, by simp [start], by simp [start]⟩⟩

variable [Executor ε] {s : Scene ε}

/-- A step of the runner hands over what it says. -/
theorem handed_work (s : Scene ε) (now : Nat) :
    (s.work now).executor.handed =
      s.executor.handed ++ (Runner.handedBy now s.runner).toList := by
  have hexec := Runner.step_executor now s.task s.state
  change (Runner.step now s.task s.state).executor.handed = _
  rw [hexec]
  change Recorder.handed ((Runner.handedBy now s.runner).elim s.executor fun q =>
    (Executor.execute s.executor q).2) = _
  cases Runner.handedBy now s.runner with
  | none => simp
  | some q => simp [Recorder.handed, Executor.execute]

theorem Sound.work (h : s.Sound) (now : Nat) : (s.work now).Sound := by
  refine ⟨h.serving, h.quiet, ?_, Runner.step_counted now s.task (s := s.state) h.counted⟩
  rw [handed_work]
  exact Runner.step_delivers (s := s.state) h.delivers

/-- Every move keeps what has been handed over and its count. -/
theorem Sound.perform (h : s.Sound) (m : Move ε) : (s.perform m).Sound := by
  cases m with
  | others m hm =>
      exact ⟨Traffic.perform_serving h.serving m, h.quiet.perform hm,
        h.delivers.keeps (Traffic.perform_keeps h.serving h.quiet m), h.counted⟩
  | work now => exact h.work now
  | stop now =>
      exact ⟨h.serving, h.quiet, h.delivers.keeps (Endpoint.keeps_interrupt _ now),
        ⟨h.counted.counts, h.counted.intact, h.counted.final⟩⟩
  | sway x => exact ⟨h.serving, h.quiet, h.delivers, h.counted⟩

/-- Every move lets the log grow only, and leaves the channel on its partition. -/
theorem perform_follows (s : Scene ε) (m : Move ε) :
    s.traffic.endpoint.Follows (s.perform m).traffic.endpoint := by
  cases m with
  | others m hm => exact Traffic.perform_follows s.traffic m
  | work now => exact Runner.step_follows s.state
  | stop now => exact Traffic.perform_follows s.traffic (.interrupt now)
  | sway x => exact .refl _

/-- After any moves the scene still is sound, and on the partition of its channel. -/
theorem run_sound (h : s.Sound) (moves : List (Move ε)) :
    (s.run moves).Sound ∧ s.traffic.endpoint.Follows (s.run moves).traffic.endpoint := by
  induction moves generalizing s with
  | nil => exact ⟨h, .refl _⟩
  | cons m moves ih =>
      obtain ⟨hsound, hfollows⟩ := ih (h.perform m)
      exact ⟨hsound, (perform_follows s m).trans hfollows⟩

end Keeping

section Delivering

/-- What a runner has handed over, with its phase and its tally, against the log of its channel. -/
structure Delivers (p : Partition) (schema : CommandSchema) (s : Scene ε) : Prop where
  /-- It is a beginning of the commands of the partition, each decoded and with its offset. -/
  told : ∃ n, s.traffic.endpoint.client.log.Tells schema p n s.executor.handed
  isPrefix : s.executor.handed <+:
    commandsFrom schema 0 (s.traffic.endpoint.client.log.written p)
  ordered : s.executor.handed.Pairwise QueuedCommand.Precedes
  /-- A replay that has not succeeded has handed over nothing. -/
  restoring : s.runner.phase.IsRestoring → s.executor.handed = []
  /-- After a replay it is all that the entries hold that the reader has passed. -/
  tailing : s.runner.phase.IsTailing →
    ∃ n, s.traffic.endpoint.client.reader.position p = some n ∧
      s.traffic.endpoint.client.log.Tells schema p n s.executor.handed
  total : (∀ err, s.runner.phase ≠ .finished (.error err)) →
    s.runner.tally.replayed + s.runner.tally.executed + s.runner.tally.failed =
      s.executor.handed.length
  counts : s.runner.tally.Counts s.executor.notes
  final : ∀ t, s.runner.phase = .finished (.ok t) → t = s.runner.tally

variable {s : Scene ε}

theorem Sound.delivers_at (h : s.Sound) {p : Partition} {schema : CommandSchema}
    (hp : s.traffic.endpoint.channel.partition = p)
    (hschema : s.traffic.endpoint.client.schema = schema) : s.Delivers p schema := by
  subst hp hschema
  obtain ⟨n, ht⟩ := h.delivers.tells
  have htail : (∃ n, s.traffic.endpoint.ReaderAt n ∧
      s.traffic.endpoint.Tells n s.executor.handed) →
      ∃ n, s.traffic.endpoint.client.reader.position s.traffic.endpoint.channel.partition =
        some n ∧ s.traffic.endpoint.Tells n s.executor.handed :=
    fun ⟨n, hat, ht⟩ => ⟨n, hat.position, ht⟩
  refine ⟨⟨n, ht⟩, ht.isPrefix, ht.pairwise, fun hr => h.delivers.of_restoring hr,
    fun hr => htail (h.delivers.of_tailing hr), fun hr => ?_, h.counted.counts,
    h.counted.final⟩
  rw [h.counted.total hr, Recorder.handed, List.length_map]

variable [Executor ε]

/-- A runner that is set to work on a channel that has been used in any way, while nobody else polls
it, hands over a beginning of the commands of the partition, in their order and each once, and
counts what it has handed over. -/
theorem run_delivers {now : Nat} {client client' : SharedLog} {topic : String}
    {e : Endpoint SharedLog} (hmake : Endpoint.make now client topic = (.ok e, client'))
    (before : List Traffic.Move) (hquiet : (Traffic.run { endpoint := e } before).Quiet)
    (timing : Timing) (x : ε) (moves : List (Move ε)) :
    ((start (Traffic.run { endpoint := e } before) timing x).run moves).Delivers
      ⟨topic, commandPartition⟩ client.schema := by
  have hs := Traffic.run_sound (Traffic.sound_of_make hmake) before
  obtain ⟨hsound, hfollows⟩ := run_sound (sound_start hs hquiet timing x) moves
  have hbefore := Traffic.run_follows { endpoint := e } before
  refine hsound.delivers_at ?_ ?_
  · rw [hfollows.partition]
    exact hbefore.partition.trans (Endpoint.make_readerAt hmake).1
  · rw [hfollows.schema]
    exact hbefore.schema.trans (Endpoint.make_client hmake).2

end Delivering

section Sample

/-- The channel has been polled once before the runner is set to work. -/
def sampleBefore : List Traffic.Move :=
  .enter (.poll 0) :: List.replicate 3 (.step 0 0)

/-- One command is sent before the replay of the runner, and another one, which fails, before its
first poll; then the runner is stopped. -/
def sampleMoves : List (Move Engine) :=
  [.others (.enter (.send ⟨.table, "orders", .create, by decide⟩ { statement := "CREATE" }))
    trivial,
    .others (.step 2 0) trivial] ++
  List.replicate 5 (.work 0) ++ List.replicate 5 (.work 2000) ++
  [.others (.enter (.send ⟨.table, "ghosts", .drop, by decide⟩ { statement := "DROP" })) trivial,
    .others (.step 3 0) trivial] ++
  List.replicate 10 (.work 2000) ++ .stop 2000 :: List.replicate 2 (.work 2000)

/-- The scene of the sample. -/
def sample : Scene Engine :=
  (start (Traffic.run { endpoint := .opened {} .json "commands" } sampleBefore) {} {}).run
    sampleMoves

theorem sampleBefore_tickets (id : TaskId) :
    (Traffic.run { endpoint := .opened {} .json "commands" } sampleBefore).tickets id = none := by
  have hs := Traffic.run_sound
    (Traffic.sound_of_make (Endpoint.make_opened 0 {} .json "commands")) sampleBefore
  cases id with
  | zero => rfl
  | succ id => exact hs.ordered.fresh _ (Nat.le_add_left 1 id)

theorem sampleBefore_quiet :
    (Traffic.run { endpoint := .opened {} .json "commands" } sampleBefore).Quiet := by
  intro id k hk
  rw [sampleBefore_tickets] at hk
  cases hk

/-- In the sample one command is replayed and another one refused, before the runner ends. -/
theorem run_delivers_sample :
    sample.executor.notes.map Prod.snd = [.succeeded, .failed "table/ghosts does not exist"] ∧
      sample.runner.result? =
        some (.ok { replayed := 1, executed := 0, failed := 1, lastOffset := some 1 }) ∧
      sample.Delivers ⟨"commands", commandPartition⟩ .json := by
  refine ⟨by decide +kernel, by decide +kernel, ?_⟩
  have hall := run_delivers (Endpoint.make_opened 0 {} .json "commands") sampleBefore
    sampleBefore_quiet {} ({} : Engine) sampleMoves
  exact hall

end Sample

end Scene
end ReplicatedLog
