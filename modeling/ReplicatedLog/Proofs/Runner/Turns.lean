import ReplicatedLog.Cluster.Basic
import ReplicatedLog.Proofs.Channel.Waking
import ReplicatedLog.Proofs.Cluster.Engine
import ReplicatedLog.Proofs.Log.Carrying
import ReplicatedLog.Proofs.Runner.Steps

/-!
# The turns of a runner

A runner on a log that carries commands which its engine executes without failure.
When it gets its turn it goes on until it has to wait.

* `Runner.Goes`: some steps that a runner has reason to take;
* `Runner.Running`: where a runner is that is not disturbed, with what it has read and
  handed over;
* `Runner.Idles`: a runner that has not begun yet, or waits in a poll;
* `Idles.turn`: such a runner goes on until it waits in a poll.
-/

namespace ReplicatedLog

namespace Reader

variable {r : Reader} {p : Partition} {k : Nat}

/-- A reader that can be used goes back to the first entry of its partition. -/
theorem IsFree.seekToBeginning (h : r.IsFree p k) :
    ∃ r', r.seekToBeginning [p] = (.ok (), r') ∧ r'.IsFree p 0 := by
  rcases seekToBeginning_at h.place with ⟨hok, hat⟩ | ⟨herr, -⟩
  · refine ⟨_, Prod.ext hok rfl, hat, ?_, ?_⟩
    · unfold Reader.seekToBeginning
      split <;> exact h.isOpen
    · unfold Reader.seekToBeginning
      split <;> exact h.isQuiet
  · unfold Reader.seekToBeginning at herr
    rw [h.isOpen] at herr
    have hcontains : r.positions.contains p = true := by
      have hposition := h.place.position
      rw [Reader.position] at hposition
      simp [SortedMap.contains, hposition]
    simp [rewind, hcontains] at herr

end Reader

namespace Runner

open Channel

section Going

variable {ε : Type} [Executor ε] {now : Nat} {me : TaskId} {s s' s'' : State SharedLog ε}
  {n n' : Nat}

/-- Steps that a runner has reason to take and that do not end it. -/
inductive Goes (now : Nat) (me : TaskId) :
    Nat → State SharedLog ε → State SharedLog ε → Prop
  | here (s : State SharedLog ε) : Goes now me 0 s s
  | on {n : Nat} {s s' : State SharedLog ε} (hready : ready now me s = true)
      (hgoes : (step now me s).runner.result? = none) (h : Goes now me n (step now me s) s') :
      Goes now me (n + 1) s s'

theorem Goes.trans (h : Goes now me n s s') (h' : Goes now me n' s' s'') :
    Goes now me (n + n') s s'' := by
  induction h with
  | here s => rwa [Nat.zero_add]
  | on hready hgoes _ ih =>
      rw [Nat.add_right_comm]
      exact .on hready hgoes (ih h')

/-- A single step. -/
theorem Goes.one (hready : ready now me s = true) (hs : step now me s = s')
    (hgoes : s'.runner.result? = none) : Goes now me 1 s s' := by
  subst hs
  exact .on hready hgoes (.here _)

/-- No step of a runner interrupts its channel. -/
theorem step_interrupts (now : Nat) (me : TaskId) (s : State SharedLog ε) :
    (step now me s).endpoint.channel.interrupts = s.endpoint.channel.interrupts := by
  rcases step_endpoint now me s with hsame | ⟨call, hstep⟩
  · rw [hsame]
  · rw [hstep]
    exact Call.step_interrupts now me s.endpoint call

theorem Goes.interrupts (h : Goes now me n s s') :
    s'.endpoint.channel.interrupts = s.endpoint.channel.interrupts := by
  induction h with
  | here s => rfl
  | @on n s s' _ _ _ ih => exact ih.trans (step_interrupts now me s)

end Going

section Shapes

/-- The phase of a call, for a replay or for a poll. -/
def calling : Bool → Call SharedLog → Phase SharedLog
  | true, c => .replaying c
  | false, c => .polling c

/-- What a runner polls for, in a replay or behind it. -/
def purpose : Bool → Purpose
  | true => .replay true
  | false => .commands

/-- How long a runner polls, in a replay or behind it. -/
def patience (timing : Timing) : Bool → Nat
  | true => timing.replayPoll.ticks
  | false => timing.poll.ticks

/-- What a replay holds of the commands that have been read; behind it nothing is kept. -/
def restored (qs : List QueuedCommand) (k : Nat) : Bool → List QueuedCommand
  | true => qs.take k
  | false => []

theorem calling_call? (isReplay : Bool) (call : Call SharedLog) :
    (calling isReplay call).call? = some (isReplay, call) := by
  cases isReplay <;> rfl

theorem calling_result? (r : Runner SharedLog) (isReplay : Bool) (call : Call SharedLog) :
    ({ r with phase := calling isReplay call } : Runner SharedLog).result? = none := by
  cases isReplay <;> rfl

theorem again_result? (r : Runner SharedLog) (isReplay : Bool) :
    ({ r with phase := again isReplay } : Runner SharedLog).result? = none := by
  cases isReplay <;> rfl

variable {ε : Type}

/-- The runner in another phase. -/
def State.to (s : State SharedLog ε) (phase : Phase SharedLog) : State SharedLog ε :=
  { s with runner := { s.runner with phase } }

/-- The runner with its reader moved. -/
def State.withReader (s : State SharedLog ε) (reader : Reader) : State SharedLog ε :=
  { s with endpoint := { s.endpoint with client := { s.endpoint.client with reader } } }

/-- The runner with another line for its reading handle. -/
def State.withLine (s : State SharedLog ε) (line : List TaskId) : State SharedLog ε :=
  { s with endpoint := { s.endpoint with channel := { s.endpoint.channel with line } } }

variable [Executor ε] {now : Nat} {me : TaskId} {s : State SharedLog ε} {isReplay : Bool}
  {call : Call SharedLog}

omit [Executor ε] in
theorem ready_calling (hp : s.runner.phase = calling isReplay call) :
    ready now me s = call.ready now me s.endpoint := by
  unfold ready
  rw [hp]
  cases isReplay <;> rfl

omit [Executor ε] in
theorem ready_again (hp : s.runner.phase = again isReplay) : ready now me s = true := by
  unfold ready
  rw [hp]
  cases isReplay <;> rfl

theorem step_waiting {call' : Call SharedLog} {e : Endpoint SharedLog}
    (hp : s.runner.phase = calling isReplay call)
    (h : call.step now me s.endpoint = (.waiting call', e)) :
    step now me s = { s.to (calling isReplay call') with endpoint := e } := by
  have hcall : s.runner.phase.call? = some (isReplay, call) := hp ▸ calling_call? isReplay call
  rw [step_of_call hcall]
  unfold stepCall
  rw [h]
  cases isReplay <;> rfl

theorem step_done {result : Channel.Result} {e : Endpoint SharedLog}
    (hp : s.runner.phase = calling isReplay call)
    (h : call.step now me s.endpoint = (.done result, e)) :
    step now me s = { s.to (afterCall now s.runner isReplay result) with endpoint := e } := by
  have hcall : s.runner.phase.call? = some (isReplay, call) := hp ▸ calling_call? isReplay call
  rw [step_of_call hcall]
  unfold stepCall
  rw [h]
  rfl

end Shapes

section Places

/-- The channel of a runner is open, its reader is at an offset of a log, and this is the line. -/
structure Stands (e : Endpoint SharedLog) (log : Log) (p : Partition) (k : Nat)
    (line : List TaskId) : Prop where
  log : e.client.log = log
  schema : e.client.schema = .json
  reader : e.client.reader.IsFree p k
  writer : e.client.writer = {}
  partition : e.channel.partition = p
  isOpen : e.channel.isShutDown = false
  line : e.channel.line = line

/-- The first commands have been handed over, all with success. -/
structure Handled (qs : List QueuedCommand) (h : Nat) (b : Workbench) (t : Tally) : Prop where
  plain : b.IsPlain
  prompt : b.delay = 0
  engine : b.engine = Engine.run {} (qs.take h)
  failed : t.failed = 0
  total : t.replayed + t.executed = h
  lastOffset : t.lastOffset = Cluster.lastBelow h

/-- Commands that an engine executes one after the other without failure. -/
structure Smooth (qs : List QueuedCommand) : Prop where
  sequence : ∀ (i : Nat) (q : QueuedCommand), qs[i]? = some q → q.sequence = some i
  succeeds : ∀ (i : Nat) (q : QueuedCommand), qs[i]? = some q →
    ((Engine.run {} (qs.take i)).execute q).1 = .succeeded

/-- A runner has read the first entries and handed over the first commands, and nothing disturbs
it. -/
structure Running (timing : Timing) (log : Log) (p : Partition) (qs : List QueuedCommand)
    (k h : Nat) (line : List TaskId) (s : State SharedLog Workbench) : Prop where
  place : Stands s.endpoint log p k line
  handled : Handled qs h s.executor s.runner.tally
  timing : s.runner.timing = timing
  goesOn : s.runner.stopRequested = false
  read : k ≤ qs.length
  bound : h ≤ qs.length

variable {timing : Timing} {log : Log} {p : Partition} {qs : List QueuedCommand} {k k' h : Nat}
  {line line' : List TaskId} {s : State SharedLog Workbench}

theorem Running.to (hs : Running timing log p qs k h line s) (phase : Phase SharedLog) :
    Running timing log p qs k h line (s.to phase) :=
  ⟨hs.place, hs.handled, hs.timing, hs.goesOn, hs.read, hs.bound⟩

theorem Running.withReader (hs : Running timing log p qs k h line s) {r : Reader}
    (hr : r.IsFree p k') (hk : k' ≤ qs.length) :
    Running timing log p qs k' h line (s.withReader r) :=
  ⟨⟨hs.place.log, hs.place.schema, hr, hs.place.writer, hs.place.partition, hs.place.isOpen,
    hs.place.line⟩, hs.handled, hs.timing, hs.goesOn, hk, hs.bound⟩

theorem Running.withLine (hs : Running timing log p qs k h line s) (line' : List TaskId) :
    Running timing log p qs k h line' (s.withLine line') :=
  ⟨⟨hs.place.log, hs.place.schema, hs.place.reader, hs.place.writer, hs.place.partition,
    hs.place.isOpen, rfl⟩, hs.handled, hs.timing, hs.goesOn, hs.read, hs.bound⟩

end Places

section Entering

variable {timing : Timing} {log : Log} {p : Partition} {qs : List QueuedCommand} {k h : Nat}
  {line : List TaskId} {s : State SharedLog Workbench} {now : Nat} {me : TaskId}
  {isReplay : Bool} {timeout : Nat}

theorem goes_again (hs : Running timing log p qs k h line s)
    (hp : s.runner.phase = again isReplay) :
    Goes now me 1 s (s.to (calling isReplay (.entered (.use (.poll (purpose isReplay)
      (patience timing isReplay)))))) := by
  refine .one (ready_again hp) ?_ (calling_result? _ _ _)
  rw [step_again hp hs.goesOn, hs.timing]
  cases isReplay <;> rfl

theorem goes_entered (hs : Running timing log p qs k h [] s)
    (hp : s.runner.phase =
      calling isReplay (.entered (.use (.poll (purpose isReplay) timeout)))) :
    Goes now me 1 s ((s.withLine [me]).to
      (calling isReplay (.inLine (.poll (purpose isReplay) timeout)))) := by
  have hopen := hs.place.isOpen
  have hline := hs.place.line
  refine .one ?_ (step_waiting hp ?_) (calling_result? _ _ _)
  · rw [ready_calling hp]
    rfl
  · rcases s with ⟨⟨client, ⟨partition, isShutDown, interrupts, line⟩⟩, executor, runner⟩
    cases hopen
    cases hline
    rfl

/-- A runner that gets the reading handle starts a poll, a replay from the first entry on. -/
theorem goes_inLine (now : Nat) (hs : Running timing log p qs k h [me] s)
    (hp : s.runner.phase = calling isReplay (.inLine (.poll (purpose isReplay) timeout))) :
    ∃ k' r, k' = (if isReplay then 0 else k) ∧ r.IsFree p k' ∧
      Goes now me 1 s ((s.withReader r).to (calling isReplay
        (.polling (purpose isReplay) timeout (restored qs k' isReplay) (.started timeout)))) := by
  have hhead : s.endpoint.channel.hasReader me = true := by
    simp [Channel.hasReader, hs.place.line]
  have hready : ready now me s = true := by
    rw [ready_calling hp]
    exact hhead
  cases isReplay with
  | false =>
      refine ⟨k, s.endpoint.client.reader, rfl, hs.place.reader,
        .one hready (step_waiting hp ?_) (calling_result? _ false _)⟩
      simp only [Call.step, hhead, if_true]
      rfl
  | true =>
      obtain ⟨r, hseek, hr⟩ := hs.place.reader.seekToBeginning
      refine ⟨0, r, rfl, hr, .one hready (step_waiting hp ?_) (calling_result? _ true _)⟩
      simp only [Call.step, hhead, if_true, purpose, Call.useReader, Call.rewind,
        Client.seekToBeginning, hs.place.partition, hseek, restored, List.take_zero]
      rfl

/-- A runner that looks for commands again gets to poll. -/
theorem goes_to_poll (now : Nat) (me : TaskId) (hs : Running timing log p qs k h [] s)
    (hp : s.runner.phase = again isReplay) :
    ∃ k' s', k' = (if isReplay then 0 else k) ∧ Goes now me 3 s s' ∧
      Running timing log p qs k' h [me] s' ∧
      s'.runner.phase = calling isReplay (.polling (purpose isReplay) (patience timing isReplay)
        (restored qs k' isReplay) (.started (patience timing isReplay))) := by
  have hentered := hs.to (calling isReplay (.entered (.use (.poll (purpose isReplay)
    (patience timing isReplay)))))
  have hlined := (hentered.withLine [me]).to
    (calling isReplay (.inLine (.poll (purpose isReplay) (patience timing isReplay))))
  obtain ⟨k', r, hk', hr, hgoes⟩ := goes_inLine now hlined rfl
  have hread : k' ≤ qs.length := by
    have := hs.read
    rw [hk']
    split <;> omega
  exact ⟨k', _, hk', (goes_again hs hp).trans ((goes_entered hentered rfl).trans hgoes),
    (hlined.withReader hr hread).to _, rfl⟩

end Entering

section Polling

variable {timing : Timing} {log : Log} {p : Partition} {qs : List QueuedCommand} {k h : Nat}
  {line : List TaskId} {s : State SharedLog Workbench} {now : Nat} {me : TaskId}
  {isReplay : Bool} {timeout : Nat} {poll : Reader.Poll}

/-- The time at which a poll is up, if nothing comes. -/
def deadlineOf (now : Nat) : Reader.Poll → Nat
  | .started timeout => now + timeout
  | .parked deadline _ => deadline

/-- A poll of a reader that can be used attempts to fetch. -/
theorem stepPoll_attempt {r : Reader} (hr : r.IsFree p k) (schema : CommandSchema) (log : Log)
    (poll : Reader.Poll) :
    r.stepPoll schema now log poll = r.attempt schema now log (deadlineOf now poll) := by
  cases poll with
  | started timeout => simp only [Reader.stepPoll, hr.ensureUsable, deadlineOf]
  | parked deadline seen => rfl

/-- With something unread a poll takes some of the commands that follow, and a replay goes on. -/
theorem goes_unread (hs : Running timing log p qs k h [me] s) (hc : log.Carries p qs)
    (hk : k < qs.length)
    (hp : s.runner.phase = calling isReplay
      (.polling (purpose isReplay) timeout (restored qs k isReplay) poll))
    (hready : ready now me s = true) :
    ∃ k' s', k < k' ∧ Goes now me 1 s s' ∧
      if isReplay then Running timing log p qs k' h [me] s' ∧
        s'.runner.phase = calling true
          (.polling (.replay true) timeout (restored qs k' true) (.started timeout))
      else Running timing log p qs k' h [] s' ∧ ∃ todo,
        s'.runner.phase = .applying todo false none ∧ qs.take k ++ todo = qs.take k' := by
  obtain ⟨b, k', r, hattempt, hr, hlt, hle, htake, hempty⟩ :=
    hs.place.reader.attempt_unread hc hk now (deadlineOf now poll)
  have hpoll : s.endpoint.client.reader.stepPoll s.endpoint.client.schema now
      s.endpoint.client.log poll = (.done (.ok b), r) := by
    rw [stepPoll_attempt hs.place.reader, hs.place.schema, hs.place.log]
    exact hattempt
  have hmoved := hs.withReader hr hle
  cases isReplay with
  | true =>
      refine ⟨k', (s.withReader r).to _, hlt, .one hready (step_waiting hp ?_)
        (calling_result? _ true _), hmoved.to _, rfl⟩
      rw [Call.step_polling hpoll]
      simp only [purpose, Call.takeBatch, hempty, restored, htake]
      rfl
  | false =>
      have hcall : Call.step now me s.endpoint
          (.polling (purpose false) timeout (restored qs k false) poll) =
            (.done (.ok (.commands b.commands)), ((s.withReader r).withLine []).endpoint) := by
        rw [Call.step_polling hpoll]
        simp [purpose, Call.takeBatch, Call.finish, Endpoint.leave, Channel.leaveLine,
          hs.place.line, State.withReader, State.withLine]
      exact ⟨k', ((s.withReader r).withLine []).to (.applying b.commands false none), hlt,
        .one hready (step_done hp hcall) rfl, (hmoved.withLine []).to _, b.commands, rfl, htake⟩

/-- With nothing unread and time left a poll waits. -/
theorem goes_read (hs : Running timing log p qs qs.length h [me] s) (hc : log.Carries p qs)
    (hp : s.runner.phase = calling isReplay
      (.polling (purpose isReplay) timeout (restored qs qs.length isReplay) poll))
    (hready : ready now me s = true) (htime : now < deadlineOf now poll) :
    Goes now me 1 s (s.to (calling isReplay (.polling (purpose isReplay) timeout
      (restored qs qs.length isReplay)
      (.parked (deadlineOf now poll) (Reader.seenNow log s.endpoint.client.reader))))) := by
  have hpoll : s.endpoint.client.reader.stepPoll s.endpoint.client.schema now
      s.endpoint.client.log poll = (.waiting (.parked (deadlineOf now poll)
        (Reader.seenNow log s.endpoint.client.reader)), s.endpoint.client.reader) := by
    rw [stepPoll_attempt hs.place.reader, hs.place.schema, hs.place.log]
    exact hs.place.reader.attempt_read hc htime
  refine .one hready (step_waiting hp ?_) (calling_result? _ isReplay _)
  rw [Call.step_polling hpoll]

/-- With nothing unread a poll is over when it is up, and a replay with it. -/
theorem goes_due (hs : Running timing log p qs qs.length h [me] s) (hc : log.Carries p qs)
    (hp : s.runner.phase = calling isReplay
      (.polling (purpose isReplay) timeout (restored qs qs.length isReplay) poll))
    (hready : ready now me s = true) (htime : deadlineOf now poll ≤ now) :
    Goes now me 1 s
      ((s.withLine []).to (.applying (restored qs qs.length isReplay) isReplay none)) := by
  obtain ⟨b, hattempt, hempty, hcommands⟩ := hs.place.reader.attempt_due hc htime
  have hpoll : s.endpoint.client.reader.stepPoll s.endpoint.client.schema now
      s.endpoint.client.log poll = (.done (.ok b), s.endpoint.client.reader) := by
    rw [stepPoll_attempt hs.place.reader, hs.place.schema, hs.place.log]
    exact hattempt
  have hcall : Call.step now me s.endpoint
      (.polling (purpose isReplay) timeout (restored qs qs.length isReplay) poll) =
        (.done (.ok (.commands (restored qs qs.length isReplay))), (s.withLine []).endpoint) := by
    rw [Call.step_polling hpoll]
    cases isReplay <;>
      simp [purpose, Call.takeBatch, hempty, hcommands, restored, Call.finish, Endpoint.leave,
        Channel.leaveLine, hs.place.line, State.withLine]
  exact .one hready (step_done hp hcall) rfl

end Polling

section Applying

variable {timing : Timing} {log : Log} {p : Partition} {qs : List QueuedCommand} {k h : Nat}
  {s : State SharedLog Workbench} {now : Nat} {me : TaskId} {isReplay : Bool}

theorem take_next {q : QueuedCommand} (hq : qs[h]? = some q) :
    qs.take (h + 1) = qs.take h ++ [q] := by
  rw [List.take_add_one, hq]
  rfl

/-- The next command succeeds, and is counted. -/
theorem Handled.next {b : Workbench} {t : Tally} {q : QueuedCommand} (hh : Handled qs h b t)
    (hqs : Smooth qs) (hq : qs[h]? = some q) (isReplay : Bool) :
    ∃ b', Executor.execute b q = (.succeeded, b') ∧
      Handled qs (h + 1) b' (t.count q isReplay true) := by
  have hsucceeds : (b.engine.execute q).1 = .succeeded := by
    rw [hh.engine]
    exact hqs.succeeds h q hq
  have hplain := (hh.plain.executes q).1
  have hexecute : b.execute q =
      (.succeeded, { b with engine := (b.engine.execute q).2 }.note q true) := by
    unfold Workbench.execute
    simp only [hh.plain.breaksOn, hh.plain.rejects]
    rw [if_neg nofun, if_neg List.not_mem_nil]
    rcases he : b.engine.execute q with ⟨verdict, engine⟩
    rw [he] at hsucceeds
    cases hsucceeds
    rfl
  rw [hexecute] at hplain
  refine ⟨_, hexecute, hplain, hh.prompt, ?_, ?_, ?_, ?_⟩
  · rw [take_next hq, Engine.run_append, ← hh.engine]
    rfl
  · cases isReplay <;> exact hh.failed
  · have htotal := hh.total
    cases isReplay <;> simp [Tally.count] <;> omega
  · cases isReplay <;> simp [Tally.count, hqs.sequence h q hq, Cluster.lastBelow]

/-- A runner executes the first of the commands that it has in hand. -/
theorem goes_next (now : Nat) (me : TaskId) (hqs : Smooth qs) {q : QueuedCommand}
    {later : List QueuedCommand}
    (hs : Running timing log p qs k h [] s)
    (hp : s.runner.phase = .applying (q :: later) isReplay none) (hq : qs[h]? = some q) :
    ∃ s', Goes now me 2 s s' ∧ Running timing log p qs k (h + 1) [] s' ∧
      s'.runner.phase = .applying later isReplay none := by
  obtain ⟨b, hexecute, hhandled⟩ := hs.handled.next hqs hq isReplay
  have hbound : h + 1 ≤ qs.length := (List.getElem?_eq_some_iff.1 hq).1
  have hwaits : step now me s = s.to (.applying (q :: later) isReplay (some now)) := by
    unfold step
    rw [hp]
    change s.to (.applying (q :: later) isReplay (some (now + s.executor.delay))) = _
    rw [hs.handled.prompt, Nat.add_zero]
  have happly : step now me (s.to (.applying (q :: later) isReplay (some now))) =
      { s with
        executor := b
        runner := { s.runner with
          phase := .applying later isReplay none
          tally := s.runner.tally.count q isReplay true } } := by
    simp only [step, State.to, Nat.le_refl, if_true, apply, hexecute]
  refine ⟨_, (Goes.one ?_ hwaits rfl).trans (Goes.one ?_ happly rfl),
    ⟨hs.place, hhandled, hs.timing, hs.goesOn, hs.read, hbound⟩, rfl⟩
  · unfold ready
    rw [hp]
  · exact decide_eq_true (Nat.le_refl now)

/-- Commands in hand are handed over one after the other. -/
theorem goes_applying (now : Nat) (me : TaskId) (hqs : Smooth qs) (todo : List QueuedCommand)
    (hs : Running timing log p qs k h [] s)
    (hp : s.runner.phase = .applying todo isReplay none) (htodo : qs.take h ++ todo = qs.take k) :
    ∃ s', Goes now me (2 * todo.length + 1) s s' ∧ Running timing log p qs k k [] s' ∧
      s'.runner.phase = again false := by
  induction todo generalizing s h with
  | nil =>
      have hlength := congrArg List.length htodo
      have hread := hs.read
      have hbound := hs.bound
      rw [List.append_nil, List.length_take, List.length_take, Nat.min_eq_left hread,
        Nat.min_eq_left hbound] at hlength
      subst hlength
      refine ⟨s.to .tailing, .one ?_ ?_ rfl, hs.to _, rfl⟩
      · unfold ready
        rw [hp]
      · unfold step
        rw [hp]
        rfl
  | cons q later ih =>
      have hh : (qs.take h).length = h := by
        rw [List.length_take, Nat.min_eq_left hs.bound]
      have hnext : (qs.take k)[h]? = some q := by
        rw [← htodo, List.getElem?_append_right (Nat.le_of_eq hh), hh, Nat.sub_self]
        rfl
      have hq : qs[h]? = some q := by
        rw [List.getElem?_take] at hnext
        split at hnext
        · exact hnext
        · cases hnext
      obtain ⟨s', hgoes, hs', hp'⟩ := goes_next now me hqs hs hp hq
      have htodo' : qs.take (h + 1) ++ later = qs.take k := by
        rw [take_next hq, List.append_assoc]
        exact htodo
      obtain ⟨s'', hgoes', hs'', hp''⟩ := ih hs' hp' htodo'
      have hcount := hgoes.trans hgoes'
      refine ⟨s'', ?_, hs'', hp''⟩
      rwa [show 2 + (2 * later.length + 1) = 2 * (q :: later).length + 1 by
        rw [List.length_cons]; omega] at hcount

end Applying

section Resting

/-- A runner waits in a poll, in a replay or behind it, and has seen so much of the log. -/
structure Parked (timing : Timing) (log : Log) (p : Partition) (qs : List QueuedCommand)
    (me : TaskId) (isReplay : Bool) (k h deadline : Nat) (seen : Reader.Seen)
    (s : State SharedLog Workbench) : Prop where
  running : Running timing log p qs k h [me] s
  phase : s.runner.phase = calling isReplay (.polling (purpose isReplay) (patience timing isReplay)
    (restored qs k isReplay) (.parked deadline seen))
  calls : seen.calls = s.endpoint.client.reader.calls
  /-- Behind a replay all that has been read has been handed over, and in it nothing. -/
  handed : h = if isReplay then 0 else k

variable {timing : Timing} {log : Log} {p : Partition} {qs : List QueuedCommand} {k h : Nat}
  {s : State SharedLog Workbench} {now deadline : Nat} {me : TaskId} {isReplay : Bool}
  {seen : Reader.Seen}

/-- A poll that waits goes on when there has been an append, or when it is up. -/
theorem Parked.ready_iff (hs : Parked timing log p qs me isReplay k h deadline seen s) :
    ready now me s = true ↔ seen.appends ≠ log.appends ∨ deadline ≤ now := by
  rw [ready_calling hs.phase]
  have hseen : seen ≠ Reader.seenNow log s.endpoint.client.reader ↔
      seen.appends ≠ log.appends := by
    rcases seen with ⟨appends, calls⟩
    have hcalls : calls = s.endpoint.client.reader.calls := hs.calls
    simp [Reader.seenNow, hcalls]
  simp only [Call.ready, Client.pollReady, Reader.pollReady, hs.running.place.log,
    Bool.or_eq_true, decide_eq_true_eq, hseen]

/-- With nothing unread a poll that starts comes to wait. -/
theorem goes_to_rest (now : Nat) (hs : Running timing log p qs qs.length h [me] s)
    (hc : log.Carries p qs)
    (hp : s.runner.phase = calling isReplay (.polling (purpose isReplay)
      (patience timing isReplay) (restored qs qs.length isReplay)
      (.started (patience timing isReplay))))
    (hpatient : 0 < patience timing isReplay)
    (hhanded : h = if isReplay then 0 else qs.length) :
    ∃ seen s', Goes now me 1 s s' ∧ seen.appends = log.appends ∧
      Parked timing log p qs me isReplay qs.length h (now + patience timing isReplay) seen s' := by
  refine ⟨_, _, goes_read hs hc hp ?_ (Nat.lt_add_of_pos_right hpatient), rfl,
    hs.to _, rfl, rfl, hhanded⟩
  rw [ready_calling hp]
  rfl

/-- A replay polls until it has read everything, and then waits. -/
theorem replay_goes (hs : Running timing log p qs k 0 [me] s) (hc : log.Carries p qs)
    (hp : s.runner.phase = calling true (.polling (.replay true) (patience timing true)
      (restored qs k true) (.started (patience timing true))))
    (hpatient : 0 < patience timing true) :
    ∃ c seen s', c ≤ qs.length - k + 1 ∧ Goes now me c s s' ∧ seen.appends = log.appends ∧
      Parked timing log p qs me true qs.length 0 (now + patience timing true) seen s' := by
  -- by induction on what is unread, which every poll but the last lessens
  induction hrest : qs.length - k using Nat.strongRecOn generalizing k s with
  | ind rest ih =>
      rcases Nat.lt_or_ge k qs.length with hlt | hge
      · have hready : ready now me s = true := by
          rw [ready_calling hp]
          rfl
        obtain ⟨k', s', hk', hgoes, hs', hp'⟩ := goes_unread hs hc hlt hp hready
        have hless : qs.length - k' < rest := by omega
        obtain ⟨c, seen, s'', hcount, hgoes', hseen, hparked⟩ := ih _ hless hs' hp' rfl
        exact ⟨1 + c, seen, s'', by omega, hgoes.trans hgoes', hseen, hparked⟩
      · obtain rfl : k = qs.length := Nat.le_antisymm hs.read hge
        obtain ⟨seen, s', hgoes, hseen, hparked⟩ :=
          goes_to_rest now hs hc hp hpatient rfl
        exact ⟨1, seen, s', by omega, hgoes, hseen, hparked⟩

/-- Behind its replay a runner polls and hands over until it has come to the end, and then waits. -/
theorem tail_goes (hqs : Smooth qs) (hs : Running timing log p qs k k [] s)
    (hc : log.Carries p qs) (hp : s.runner.phase = again false)
    (hpatient : 0 < patience timing false) :
    ∃ c seen s', c ≤ 7 * (qs.length - k) + 4 ∧ Goes now me c s s' ∧
      seen.appends = log.appends ∧
      Parked timing log p qs me false qs.length qs.length (now + patience timing false) seen
        s' := by
  -- by induction on what is unread, which every poll but the last lessens
  induction hrest : qs.length - k using Nat.strongRecOn generalizing k s with
  | ind rest ih =>
      obtain ⟨k₁, s₁, hk₁, hpoll, hs₁, hp₁⟩ := goes_to_poll now me hs hp
      obtain rfl : k = k₁ := hk₁.symm
      rcases Nat.lt_or_ge k qs.length with hlt | hge
      · have hready : ready now me s₁ = true := by
          rw [ready_calling hp₁]
          rfl
        obtain ⟨k', s₂, hk', htake, hs₂, todo, hp₂, htodo⟩ := goes_unread hs₁ hc hlt hp₁ hready
        obtain ⟨s₃, happly, hs₃, hp₃⟩ := goes_applying now me hqs todo hs₂ hp₂ htodo
        have hlength := congrArg List.length htodo
        rw [List.length_append, List.length_take, List.length_take, Nat.min_eq_left hs.read,
          Nat.min_eq_left hs₂.read] at hlength
        have hless : qs.length - k' < rest := by omega
        obtain ⟨c, seen, s₄, hcount, hgoes, hseen, hparked⟩ := ih _ hless hs₃ hp₃ rfl
        have hread := hs₂.read
        exact ⟨3 + (1 + (2 * todo.length + 1 + c)), seen, s₄, by omega,
          hpoll.trans (htake.trans (happly.trans hgoes)), hseen, hparked⟩
      · obtain rfl : k = qs.length := Nat.le_antisymm hs.read hge
        obtain ⟨seen, s₂, hgoes, hseen, hparked⟩ := goes_to_rest now hs₁ hc hp₁ hpatient rfl
        exact ⟨3 + 1, seen, s₂, by omega, hpoll.trans hgoes, hseen, hparked⟩

end Resting

end Runner
end ReplicatedLog
