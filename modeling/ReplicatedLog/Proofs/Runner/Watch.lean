import ReplicatedLog.Client.Service
import ReplicatedLog.Cluster.Engine
import ReplicatedLog.Proofs.Channel.Course
import ReplicatedLog.Proofs.Runner.Delivery

/-!
# A runner on any client

A runner takes its steps on a channel that anybody may change in between in any way,
with a client that may answer anything, and is asked to stop at any time; its executor
does what it likes.

* `Watch` is such a runner, with the replays and polls that are over and what each of
  them has had the client do; `Watch.run` lets any events happen in their order;
* `Restoring` and `Restored`: the replays and polls of a runner are replays that have
  failed, one that has succeeded, and then polls, and tell the commands that there are
  to hand over;
* `Watch.Sound` is what holds of the replays and polls, of what has been handed over
  and of the end, and `Sound.perform`: every event keeps it;
* `Watch.hands_over_what_is_read`: all of it, with what comes of a failure.
-/

namespace ReplicatedLog
namespace Runner

open Channel

variable {σ ε : Type} [Client σ]

section Forgetting

/-- A phase of which it is forgotten that the client is audited. -/
def Phase.forget : Phase (Audited σ) → Phase σ
  | .restoring => .restoring
  | .replaying call => .replaying call.forget
  | .applying todo isReplay start => .applying todo isReplay start
  | .tailing => .tailing
  | .polling call => .polling call.forget
  | .backingOff deadline stops isReplay => .backingOff deadline stops isReplay
  | .finished result => .finished result

/-- A runner of which it is forgotten that its client is audited. -/
def forget (r : Runner (Audited σ)) : Runner σ where
  timing := r.timing
  phase := r.phase.forget
  tally := r.tally
  stopRequested := r.stopRequested
  stops := r.stops

/-- The same with its channel and its executor. -/
def State.forget (s : State (Audited σ) ε) : State σ ε :=
  ⟨s.endpoint.forget, s.executor, s.runner.forget⟩

theorem again_forget (isReplay : Bool) :
    (again isReplay : Phase (Audited σ)).forget = again isReplay := by
  cases isReplay <;> rfl

theorem afterFailure_forget (now : Nat) (r : Runner (Audited σ)) (isReplay : Bool)
    (err : Channel.Error) :
    afterFailure now r.forget isReplay err = (afterFailure now r isReplay err).forget := by
  unfold afterFailure
  split
  · exact (again_forget isReplay).symm
  · split
    · rfl
    · by_cases hstop : r.stopRequested = true
      · rw [if_pos hstop, if_pos (show r.forget.stopRequested = true from hstop)]
        exact (again_forget isReplay).symm
      · rw [if_neg hstop, if_neg (show ¬ r.forget.stopRequested = true from hstop)]
        rfl

theorem stepCall_forget (now : Nat) (me : TaskId) (s : State (Audited σ) ε) (isReplay : Bool)
    (call : Call (Audited σ)) :
    stepCall now me s.forget isReplay call.forget = (stepCall now me s isReplay call).forget := by
  have hstep := Call.step_forget now me s.endpoint call
  unfold stepCall
  rw [show s.forget.endpoint = s.endpoint.forget from rfl, hstep]
  rcases call.step now me s.endpoint with ⟨progress, after⟩
  cases progress with
  | waiting call' => cases isReplay <;> rfl
  | done result =>
      cases result with
      | error err =>
          have hfailure := afterFailure_forget now s.runner isReplay err
          simp only [Call.Stepped.forget, Progress.map, id, afterCall]
          rw [show s.forget.runner = s.runner.forget from rfl, hfailure]
          rfl
      | ok reply => cases reply <;> rfl

variable [Executor ε]

/-- A step of a runner on an audited client is what it is on the client itself. -/
theorem step_forget (now : Nat) (me : TaskId) (s : State (Audited σ) ε) :
    step now me s.forget = (step now me s).forget := by
  obtain ⟨e, x, ⟨timing, phase, tally, stopRequested, stops⟩⟩ := s
  cases phase with
  | restoring => cases stopRequested <;> rfl
  | replaying call => exact stepCall_forget now me _ true call
  | tailing => cases stopRequested <;> rfl
  | polling call => exact stepCall_forget now me _ false call
  | finished result => rfl
  | backingOff deadline since isReplay =>
      by_cases hdue : deadline ≤ now ∨ stops ≠ since
      · refine (if_pos hdue).trans (.trans ?_ (congrArg State.forget (if_pos hdue).symm))
        cases isReplay <;> rfl
      · exact (if_neg hdue).trans (congrArg State.forget (if_neg hdue).symm)
  | applying todo isReplay start =>
      cases todo with
      | nil => rfl
      | cons q later =>
          cases start with
          | none => rfl
          | some start =>
              by_cases hdue : start ≤ now
              · refine (if_pos hdue).trans (.trans ?_ (congrArg State.forget (if_pos hdue).symm))
                simp only [apply, State.forget]
                rcases Executor.execute x q with ⟨verdict, x'⟩
                cases verdict <;> rfl
              · exact (if_neg hdue).trans (congrArg State.forget (if_neg hdue).symm)

end Forgetting

section Watching

/-- A replay or a poll of a runner that is over. -/
structure Operation where
  isReplay : Bool
  /-- What it has had the client do. -/
  items : List Item
  result : Channel.Result

/-- The commands that it has brought. -/
def Operation.commands (o : Operation) : List QueuedCommand :=
  match o.result with
  | .ok (.commands cs) => cs
  | _ => []

/-- A runner at work, with what its replays and polls have had the client do. -/
structure Watch (σ ε : Type) [Client σ] where
  runner : Runner (Audited σ)
  executor : Recorder ε
  /-- The replays and polls that are over, in their order. -/
  operations : List Operation := []
  /-- What the replay or the poll in progress has had the client do so far. -/
  items : List Item := []

/-- What can happen to a runner. -/
inductive Event (σ ε : Type)
  /-- It takes a step at a time, on the channel as it then is. -/
  | work (now : Nat) (e : Endpoint σ)
  /-- It is asked to stop. -/
  | stop
  /-- The executor is changed from elsewhere. -/
  | sway (x : ε)

variable [Executor ε]

namespace Watch

/-- A runner that has just been set to work. -/
def start (timing : Timing) (x : ε) : Watch σ ε where
  runner := { timing }
  executor := { inner := x }

/-- What the replay or the poll in progress comes to with a step, if it is over then. -/
def outcome (me : TaskId) (w : Watch σ ε) (now : Nat) (e : Endpoint σ) :
    Option (Bool × Channel.Result) :=
  match w.runner.phase.call? with
  | none => none
  | some (isReplay, call) =>
      match (call.step now me e.audited).1 with
      | .waiting _ => none
      | .done result => some (isReplay, result)

/-- The runner after a step. -/
def work (me : TaskId) (w : Watch σ ε) (now : Nat) (e : Endpoint σ) : Watch σ ε :=
  let after := step now me ⟨e.audited, w.executor, w.runner⟩
  let items := w.items ++ after.endpoint.client.account
  match w.outcome me now e with
  | none => ⟨after.runner, after.executor, w.operations, items⟩
  | some (isReplay, result) =>
      ⟨after.runner, after.executor, w.operations ++ [⟨isReplay, items, result⟩], []⟩

/-- The runner after an event. -/
def perform (me : TaskId) (w : Watch σ ε) : Event σ ε → Watch σ ε
  | .work now e => w.work me now e
  | .stop => { w with runner := w.runner.requestStop }
  | .sway x => { w with executor := { w.executor with inner := x } }

/-- The runner after events. -/
def run (me : TaskId) (w : Watch σ ε) (events : List (Event σ ε)) : Watch σ ε :=
  events.foldl (perform me) w

end Watch

/-- A runner on the client itself and its executor after an event. -/
def follow (me : TaskId) (s : Runner σ × Recorder ε) : Event σ ε → Runner σ × Recorder ε
  | .work now e =>
      let after := step now me ⟨e, s.2, s.1⟩
      (after.runner, after.executor)
  | .stop => (s.1.requestStop, s.2)
  | .sway x => (s.1, { s.2 with inner := x })

theorem Watch.work_runner (me : TaskId) (w : Watch σ ε) (now : Nat) (e : Endpoint σ) :
    (w.work me now e).runner = (step now me ⟨e.audited, w.executor, w.runner⟩).runner ∧
      (w.work me now e).executor = (step now me ⟨e.audited, w.executor, w.runner⟩).executor := by
  unfold work
  dsimp only
  split <;> exact ⟨rfl, rfl⟩

/-- The account changes nothing about a runner. -/
theorem Watch.run_forget (me : TaskId) (w : Watch σ ε) (events : List (Event σ ε)) :
    events.foldl (follow me) (w.runner.forget, w.executor) =
      ((w.run me events).runner.forget, (w.run me events).executor) := by
  induction events generalizing w with
  | nil => rfl
  | cons event events ih =>
      have hone : follow me (w.runner.forget, w.executor) event =
          ((w.perform me event).runner.forget, (w.perform me event).executor) := by
        cases event with
        | work now e =>
            have hstep := step_forget now me ⟨e.audited, w.executor, w.runner⟩
            obtain ⟨hrunner, hexecutor⟩ := w.work_runner me now e
            change ((step now me (State.forget ⟨e.audited, w.executor, w.runner⟩)).runner,
              (step now me (State.forget ⟨e.audited, w.executor, w.runner⟩)).executor) = _
            rw [hstep]
            change _ = ((w.work me now e).runner.forget, (w.work me now e).executor)
            rw [hrunner, hexecutor]
            rfl
        | stop => rfl
        | sway x => rfl
      rw [List.foldl_cons, hone, ih]
      rfl

end Watching

section Telling

/-- Replays that have all failed. -/
def Restoring (operations : List Operation) : Prop :=
  ∀ o ∈ operations, o.isReplay = true ∧ ∃ err, o.result = .error err

/-- Replays that have failed, then one that has succeeded, and then polls: the commands of the
replay and those of the polls after it. -/
inductive Restored : List Operation → List QueuedCommand → Prop
  | tail (failed : List Operation) (restoring : Restoring failed) (first : Operation)
      (isReplay : first.isReplay = true) (cs : List QueuedCommand)
      (result : first.result = .ok (.commands cs)) (polls : List Operation)
      (tailing : ∀ o ∈ polls, o.isReplay = false) :
      Restored (failed ++ first :: polls) (cs ++ polls.flatMap Operation.commands)

variable {operations : List Operation} {cs : List QueuedCommand} {o : Operation}

theorem Restoring.fail (h : Restoring operations) (ho : o.isReplay = true) {err : Channel.Error}
    (hr : o.result = .error err) : Restoring (operations ++ [o]) := by
  intro o' ho'
  rcases List.mem_append.1 ho' with ho' | ho'
  · exact h o' ho'
  · rw [List.mem_singleton.1 ho']
    exact ⟨ho, err, hr⟩

theorem Restoring.succeed (h : Restoring operations) (ho : o.isReplay = true)
    (hr : o.result = .ok (.commands cs)) : Restored (operations ++ [o]) cs := by
  have := Restored.tail operations h o ho cs hr [] (by simp)
  rwa [List.flatMap_nil, List.append_nil] at this

theorem Restored.poll (h : Restored operations cs) (ho : o.isReplay = false) :
    Restored (operations ++ [o]) (cs ++ o.commands) := by
  cases h with
  | tail failed hfailed first hfirst cs hcs polls hpolls =>
      have hmore : ∀ o' ∈ polls ++ [o], o'.isReplay = false := by
        intro o' ho'
        rcases List.mem_append.1 ho' with ho' | ho'
        · exact hpolls o' ho'
        · rw [List.mem_singleton.1 ho']
          exact ho
      have := Restored.tail failed hfailed first hfirst cs hcs (polls ++ [o]) hmore
      rwa [List.flatMap_append, List.flatMap_singleton, ← List.append_assoc, ← List.cons_append,
        ← List.append_assoc] at this

/-- What has been handed over in a phase, by what the replays and polls have brought. -/
def Phase.HandsOver (operations : List Operation) (handed : List QueuedCommand) :
    Phase σ → Prop
  | .restoring | .replaying _ | .backingOff _ _ true => Restoring operations ∧ handed = []
  | .applying todo _ _ => Restored operations (handed ++ todo)
  | .tailing | .polling _ | .backingOff _ _ false => Restored operations handed
  | .finished (.ok _) => (Restoring operations ∧ handed = []) ∨ Restored operations handed
  | .finished (.error _) => ∃ lost, Restored operations (handed ++ lost)

end Telling

section Soundness

/-- What the replay or the poll in progress has had the client do; there is nothing otherwise. -/
def Phase.Holds (p : Partition) (timing : Timing) (items : List Item) :
    Phase (Audited σ) → Prop
  | .replaying call => Replaying p true timing.replayPoll.ticks items call
  | .polling call => Tailing timing.poll.ticks items call
  | _ => items = []

/-- A replay or a poll that is over has had done what it should, and brought what came of it. -/
def Operation.Lawful (shut : Prop) (p : Partition) (timing : Timing) (o : Operation) : Prop :=
  if o.isReplay then Replayed shut p true timing.replayPoll.ticks o.items o.result
  else Tailed shut timing.poll.ticks o.items o.result

/-- The last replay or poll has come to this failure. -/
def FailedWith (operations : List Operation) (isReplay : Bool) (err : Channel.Error) : Prop :=
  ∃ o, operations.getLast? = some o ∧ o.isReplay = isReplay ∧ o.result = .error err

/-- What holds of a runner at work; `shut` tells whether it has seen its channel shut down. -/
structure Watch.Sound (shut : Prop) (p : Partition) (timing : Timing) (w : Watch σ ε) :
    Prop where
  timed : w.runner.timing = timing
  handed : w.runner.phase.HandsOver w.operations w.executor.handed
  items : w.runner.phase.Holds p timing w.items
  lawful : ∀ o ∈ w.operations, o.Lawful shut p timing
  /-- It ends with its tally, when it is asked to stop or refused since its channel is shut down,
  or with its executor. -/
  ends : ∀ result, w.runner.phase = .finished result →
    (result = .ok w.runner.tally ∧ (w.runner.stopRequested = true ∨
      (shut ∧ ∃ isReplay, FailedWith w.operations isReplay .closed))) ∨
    ∃ reason q, result = .error (.taskFailed reason) ∧
      w.executor.notes.getLast? = some (q, .brokeDown)
  /-- It waits after failures other than a cancelled wait and a channel that is shut down. -/
  waits : ∀ deadline stops isReplay, w.runner.phase = .backingOff deadline stops isReplay →
    ∃ err, FailedWith w.operations isReplay err ∧ err.isCancelled = false ∧ err ≠ .closed

variable {shut shut' : Prop} {p : Partition} {timing : Timing} {w : Watch σ ε} {now : Nat}
  {me : TaskId} {e : Endpoint σ}

theorem Phase.Holds.of_rest {phase : Phase (Audited σ)} {items : List Item}
    (h : phase.Holds p timing items) (hcall : phase.call? = none) : items = [] := by
  cases phase with
  | replaying call => cases hcall
  | polling call => cases hcall
  | restoring => exact h
  | applying todo isReplay start => exact h
  | tailing => exact h
  | backingOff deadline stops isReplay => exact h
  | finished result => exact h

theorem Operation.Lawful.mono {o : Operation} (h : o.Lawful shut p timing) (hs : shut → shut') :
    o.Lawful shut' p timing := by
  unfold Lawful at h ⊢
  split at h
  next hreplay => exact (if_pos hreplay).symm ▸ h.mono hs
  next hpoll => exact (if_neg hpoll).symm ▸ h.mono hs

theorem Watch.Sound.mono (h : w.Sound shut p timing) (hs : shut → shut') :
    w.Sound shut' p timing :=
  { h with
    lawful := fun o ho => (h.lawful o ho).mono hs
    ends := fun result hr => (h.ends result hr).imp_left
      fun ⟨hok, hwhy⟩ => ⟨hok, hwhy.imp_right fun ⟨hshut, hclosed⟩ => ⟨hs hshut, hclosed⟩⟩ }

theorem ofLog_ne_closed (err : LogError) : Channel.Error.ofLog err ≠ .closed := by
  cases err <;> simp [Channel.Error.ofLog]

/-- Only a channel that is shut down refuses. -/
theorem Operation.Lawful.refused {isReplay : Bool} {items : List Item}
    (h : Lawful shut p timing ⟨isReplay, items, .error .closed⟩) : shut := by
  unfold Lawful at h
  dsimp only at h
  generalize hr : (Except.error Channel.Error.closed : Channel.Result) = result at h
  split at h
  · cases h with
    | refused hshut => exact hshut
    | stuck err => exact absurd (Except.error.inj hr).symm (ofLog_ne_closed err)
    | broken batches hsome err => exact absurd (Except.error.inj hr).symm (ofLog_ne_closed err)
    | whole batches hsome b hnone => cases hr
  · cases h with
    | refused hshut => exact hshut
    | broken err => exact absurd (Except.error.inj hr).symm (ofLog_ne_closed err)
    | whole b => cases hr

theorem failedWith_append (operations : List Operation) (isReplay : Bool) (items : List Item)
    (err : Channel.Error) :
    FailedWith (operations ++ [⟨isReplay, items, .error err⟩]) isReplay err :=
  ⟨_, List.getLast?_concat, rfl, rfl⟩

/-- A replay or a poll that fails. -/
theorem Watch.Sound.fail (h : w.Sound shut p timing) {isReplay : Bool} {call : Call (Audited σ)}
    (hcall : w.runner.phase.call? = some (isReplay, call)) (now : Nat) {items : List Item}
    {err : Channel.Error} (hlaw : Operation.Lawful shut p timing ⟨isReplay, items, .error err⟩) :
    Watch.Sound shut p timing
      ⟨{ w.runner with phase := afterFailure now w.runner isReplay err }, w.executor,
        w.operations ++ [⟨isReplay, items, .error err⟩], []⟩ := by
  have hlawful : ∀ o ∈ w.operations ++ [⟨isReplay, items, .error err⟩],
      Operation.Lawful shut p timing o := by
    intro o ho
    rcases List.mem_append.1 ho with ho | ho
    · exact h.lawful o ho
    · rw [List.mem_singleton.1 ho]
      exact hlaw
  -- nothing has been handed over before the first replay that succeeds, and a poll that fails
  -- brings nothing
  have hhanded : (isReplay = true ∧ Restoring (w.operations ++ [⟨isReplay, items, .error err⟩]) ∧
        w.executor.handed = []) ∨
      (isReplay = false ∧
        Restored (w.operations ++ [⟨isReplay, items, .error err⟩]) w.executor.handed) := by
    have hbefore := h.handed
    rcases Phase.call?_some hcall with ⟨rfl, hphase⟩ | ⟨rfl, hphase⟩
    · rw [hphase] at hbefore
      exact Or.inl ⟨rfl, hbefore.1.fail rfl rfl, hbefore.2⟩
    · rw [hphase] at hbefore
      have hmore := Restored.poll hbefore (o := ⟨false, items, .error err⟩) rfl
      rw [show Operation.commands ⟨false, items, .error err⟩ = [] from rfl,
        List.append_nil] at hmore
      exact Or.inr ⟨rfl, hmore⟩
  rcases afterFailure_cases now w.runner isReplay err with
    ⟨hphase, -⟩ | ⟨hphase, rfl⟩ | ⟨hphase, hother, hopen, -⟩
  · rw [hphase]
    rcases hhanded with ⟨rfl, hhanded⟩ | ⟨rfl, hhanded⟩
    · exact ⟨h.timed, hhanded, rfl, hlawful, nofun, nofun⟩
    · exact ⟨h.timed, hhanded, rfl, hlawful, nofun, nofun⟩
  · rw [hphase]
    refine ⟨h.timed, ?_, rfl, hlawful, fun result hr => ?_, nofun⟩
    · rcases hhanded with ⟨-, hhanded⟩ | ⟨-, hhanded⟩
      · exact Or.inl hhanded
      · exact Or.inr hhanded
    · cases hr
      exact Or.inl ⟨rfl, Or.inr ⟨hlaw.refused, isReplay, failedWith_append _ _ _ _⟩⟩
  · rw [hphase]
    refine ⟨h.timed, ?_, rfl, hlawful, nofun, fun deadline stops isReplay hr => ?_⟩
    · rcases hhanded with ⟨rfl, hhanded⟩ | ⟨rfl, hhanded⟩
      · exact hhanded
      · exact hhanded
    · cases hr
      exact ⟨err, failedWith_append _ _ _ _, hother, hopen⟩

/-- What has been brought is commands. -/
theorem Operation.Lawful.commands {isReplay : Bool} {items : List Item} {reply : Reply}
    (h : Lawful shut p timing ⟨isReplay, items, .ok reply⟩) : ∃ cs, reply = .commands cs := by
  unfold Lawful at h
  dsimp only at h
  split at h
  · cases h
    exact ⟨_, rfl⟩
  · cases h
    exact ⟨_, rfl⟩

/-- A replay or a poll that succeeds. -/
theorem Watch.Sound.succeed (h : w.Sound shut p timing) {isReplay : Bool}
    {call : Call (Audited σ)} (hcall : w.runner.phase.call? = some (isReplay, call))
    {items : List Item} {cs : List QueuedCommand}
    (hlaw : Operation.Lawful shut p timing ⟨isReplay, items, .ok (.commands cs)⟩) :
    Watch.Sound shut p timing
      (⟨{ w.runner with phase := .applying cs isReplay none }, w.executor,
        w.operations ++ [⟨isReplay, items, .ok (.commands cs)⟩], []⟩ : Watch σ ε) := by
  refine ⟨h.timed, ?_, rfl, fun o ho => ?_, nofun, nofun⟩
  · have hbefore := h.handed
    change Restored _ (w.executor.handed ++ cs)
    rcases Phase.call?_some hcall with ⟨rfl, hphase⟩ | ⟨rfl, hphase⟩
    · rw [hphase] at hbefore
      rw [hbefore.2, List.nil_append]
      exact hbefore.1.succeed rfl rfl
    · rw [hphase] at hbefore
      exact Restored.poll hbefore (o := ⟨false, items, .ok (.commands cs)⟩) rfl
  · rcases List.mem_append.1 ho with ho | ho
    · exact h.lawful o ho
    · rw [List.mem_singleton.1 ho]
      exact hlaw

/-- What a step of a replay or a poll enters, and what it comes to, are as they should be. -/
theorem Watch.Sound.law (h : w.Sound shut p timing) {isReplay : Bool} {call : Call (Audited σ)}
    (hcall : w.runner.phase.call? = some (isReplay, call)) (now : Nat) (me : TaskId)
    (hp : e.channel.partition = p) (hs : e.channel.isShutDown = true → shut) :
    Obeys
      (fun items (call' : Call (Audited σ)) =>
        (if isReplay then Phase.replaying call' else Phase.polling call').Holds p timing items)
      (fun items result => Operation.Lawful shut p timing ⟨isReplay, items, result⟩)
      (w.items ++ (call.step now me e.audited).2.client.account)
      (call.step now me e.audited).1 := by
  have hbefore := h.items
  rcases Phase.call?_some hcall with ⟨rfl, hphase⟩ | ⟨rfl, hphase⟩
  · rw [hphase] at hbefore
    have hstep := Replaying.step hbefore now me hp
    cases hprogress : (call.step now me e.audited).1 with
    | waiting call' =>
        rw [hprogress] at hstep
        exact hstep
    | done result =>
        rw [hprogress] at hstep
        exact Replayed.mono hstep hs
  · rw [hphase] at hbefore
    have hstep := Tailing.step hbefore now me e
    cases hprogress : (call.step now me e.audited).1 with
    | waiting call' =>
        rw [hprogress] at hstep
        exact hstep
    | done result =>
        rw [hprogress] at hstep
        exact Tailed.mono hstep hs

variable [Executor ε]

/-- A step of the replay or the poll in progress keeps a runner sound. -/
theorem Watch.Sound.work_call (h : w.Sound shut p timing) {isReplay : Bool}
    {call : Call (Audited σ)} (hcall : w.runner.phase.call? = some (isReplay, call)) (now : Nat)
    (me : TaskId) (hp : e.channel.partition = p) (hs : e.channel.isShutDown = true → shut) :
    (w.work me now e).Sound shut p timing := by
  have hlaw := h.law hcall now me hp hs
  have hstep : step now me ⟨e.audited, w.executor, w.runner⟩ =
      stepCall now me ⟨e.audited, w.executor, w.runner⟩ isReplay call := step_of_call hcall
  unfold Watch.work Watch.outcome
  rw [hstep, hcall]
  unfold stepCall
  dsimp only
  rcases hcalled : call.step now me e.audited with ⟨progress, after⟩
  rw [hcalled] at hlaw
  cases progress with
  | waiting call' =>
      have hhanded := h.handed
      rcases Phase.call?_some hcall with ⟨rfl, hphase⟩ | ⟨rfl, hphase⟩
      · rw [hphase] at hhanded
        exact ⟨h.timed, hhanded, hlaw, h.lawful, nofun, nofun⟩
      · rw [hphase] at hhanded
        exact ⟨h.timed, hhanded, hlaw, h.lawful, nofun, nofun⟩
  | done result =>
      cases result with
      | error err => exact h.fail hcall now hlaw
      | ok reply =>
          obtain ⟨cs, rfl⟩ := hlaw.commands
          exact h.succeed hcall hlaw

/-- Handing over a command keeps a runner sound. -/
theorem Watch.Sound.apply (h : w.Sound shut p timing) {q : QueuedCommand}
    {later : List QueuedCommand} {isReplay : Bool} {start : Option Nat}
    (hphase : w.runner.phase = .applying (q :: later) isReplay start) (e : Endpoint σ) :
    Watch.Sound shut p timing
      (⟨(Runner.apply ⟨e.audited, w.executor, w.runner⟩ q later isReplay).runner,
        (Runner.apply ⟨e.audited, w.executor, w.runner⟩ q later isReplay).executor,
        w.operations, []⟩ : Watch σ ε) := by
  have hhanded : Restored w.operations (w.executor.handed ++ [q] ++ later) := by
    have := h.handed
    rw [hphase] at this
    rwa [List.append_assoc, List.singleton_append]
  unfold Runner.apply
  rcases hx : Executor.execute w.executor q with ⟨verdict, executor⟩
  have hnotes : executor.notes = w.executor.notes ++ [(q, verdict)] := by
    cases hx
    rfl
  have hmore : executor.handed = w.executor.handed ++ [q] := by
    rw [Recorder.handed, hnotes, List.map_append]
    rfl
  rw [← hmore] at hhanded
  dsimp only
  cases verdict with
  | succeeded => exact ⟨h.timed, hhanded, rfl, h.lawful, nofun, nofun⟩
  | failed reason => exact ⟨h.timed, hhanded, rfl, h.lawful, nofun, nofun⟩
  | brokeDown =>
      refine ⟨h.timed, ⟨later, hhanded⟩, rfl, h.lawful, fun result hr => ?_, nofun⟩
      cases hr
      refine Or.inr ⟨_, q, rfl, ?_⟩
      dsimp only
      rw [hnotes]
      exact List.getLast?_concat

/-- A step with neither a replay nor a poll in progress keeps a runner sound. -/
theorem Watch.Sound.work_rest (h : w.Sound shut p timing) (hcall : w.runner.phase.call? = none)
    (now : Nat) (me : TaskId) (e : Endpoint σ) : (w.work me now e).Sound shut p timing := by
  have hbefore : ∀ phase, w.runner.phase = phase →
      phase.HandsOver w.operations w.executor.handed := by
    rintro phase rfl
    exact h.handed
  have hmoves := step_moves now me (⟨e.audited, w.executor, w.runner⟩ : State _ _)
  unfold Watch.work Watch.outcome
  rw [hcall, h.items.of_rest hcall]
  dsimp only
  generalize step now me ⟨e.audited, w.executor, w.runner⟩ = after at hmoves ⊢
  cases hmoves with
  | ends isReplay hphase hstop =>
      have hhanded := hbefore _ hphase
      refine ⟨h.timed, ?_, rfl, h.lawful, fun result hr => Or.inl ⟨?_, Or.inl hstop⟩, nofun⟩
      · cases isReplay with
        | true => exact Or.inl hhanded
        | false => exact Or.inr hhanded
      · cases hr
        rfl
  | begins isReplay hphase hstop =>
      have hhanded := hbefore _ hphase
      obtain rfl := h.timed
      cases isReplay with
      | true => exact ⟨rfl, hhanded, .entered, h.lawful, nofun, nofun⟩
      | false => exact ⟨rfl, hhanded, .entered, h.lawful, nofun, nofun⟩
  | calls isReplay call hin => exact absurd (hcall.symm.trans hin) nofun
  | runsOut isReplay start hphase =>
      have hhanded : Restored w.operations (w.executor.handed ++ []) := hbefore _ hphase
      rw [List.append_nil] at hhanded
      exact ⟨h.timed, hhanded, rfl, h.lawful, nofun, nofun⟩
  | takesUp q later isReplay hphase =>
      have hhanded := hbefore _ hphase
      exact ⟨h.timed, hhanded, rfl, h.lawful, nofun, nofun⟩
  | hands q later isReplay start hphase hdue => exact h.apply hphase e
  | recovers deadline since isReplay hphase hdue =>
      have hhanded := hbefore _ hphase
      cases isReplay with
      | true => exact ⟨h.timed, hhanded, rfl, h.lawful, nofun, nofun⟩
      | false => exact ⟨h.timed, hhanded, rfl, h.lawful, nofun, nofun⟩
  | rests hready hin =>
      have hitems := h.items
      rw [h.items.of_rest hcall] at hitems
      exact ⟨h.timed, h.handed, hitems, h.lawful, h.ends, h.waits⟩

/-- A step on the channel of a runner keeps it sound. -/
theorem Watch.Sound.work (h : w.Sound shut p timing) (now : Nat) (me : TaskId)
    (hp : e.channel.partition = p) (hs : e.channel.isShutDown = true → shut) :
    (w.work me now e).Sound shut p timing := by
  cases hcall : w.runner.phase.call? with
  | none => exact h.work_rest hcall now me e
  | some c => exact h.work_call hcall now me hp hs

/-- One of the channels was shut down when the runner took a step on it. -/
def SeesShutDown (events : List (Event σ ε)) : Prop :=
  ∃ now e, Event.work now e ∈ events ∧ e.channel.isShutDown = true

/-- An event keeps a runner sound. -/
theorem Watch.Sound.perform (h : w.Sound shut p timing) (me : TaskId) {event : Event σ ε}
    (hp : ∀ now e, event = .work now e → e.channel.partition = p)
    (hs : ∀ now e, event = .work now e → e.channel.isShutDown = true → shut) :
    (w.perform me event).Sound shut p timing := by
  cases event with
  | work now e => exact h.work now me (hp now e rfl) (hs now e rfl)
  | sway x => exact ⟨h.timed, h.handed, h.items, h.lawful, h.ends, h.waits⟩
  | stop =>
      refine ⟨h.timed, h.handed, h.items, h.lawful, fun result hr => ?_, h.waits⟩
      exact (h.ends result hr).imp_left fun ⟨hok, _⟩ => ⟨hok, Or.inl rfl⟩

omit [Executor ε] in
theorem Watch.start_sound (p : Partition) (timing : Timing) (x : ε) :
    (start timing x : Watch σ ε).Sound shut p timing :=
  ⟨rfl, ⟨nofun, rfl⟩, rfl, nofun, nofun, nofun⟩

/-- A runner is sound after any events. -/
theorem Watch.run_sound (me : TaskId) (timing : Timing) (x : ε) {events : List (Event σ ε)}
    (hp : ∀ now e, Event.work now e ∈ events → e.channel.partition = p) :
    (run me (start timing x) events).Sound (SeesShutDown events) p timing := by
  induction events using List.reverseRecOn with
  | nil => exact start_sound p timing x
  | append_singleton events event ih =>
      have hbefore := ih fun now e he => hp now e (List.mem_append_left _ he)
      have hlater : SeesShutDown events → SeesShutDown (events ++ [event]) :=
        fun ⟨now, e, he, hshut⟩ => ⟨now, e, List.mem_append_left _ he, hshut⟩
      rw [run, List.foldl_append]
      refine (hbefore.mono hlater).perform me ?_ ?_
      · rintro now e rfl
        exact hp now e (List.mem_append_right _ List.mem_cons_self)
      · rintro now e rfl hshut
        exact ⟨now, e, List.mem_append_right _ List.mem_cons_self, hshut⟩

/-- A runner that is about to replay or to poll begins with its next step, at whatever time, unless
it is asked to stop. -/
theorem Watch.work_again (me : TaskId) {isReplay : Bool} (hphase : w.runner.phase = again isReplay)
    (hstop : w.runner.stopRequested = false) (now : Nat) (e : Endpoint σ) :
    (w.work me now e).runner.phase = looking w.runner.timing isReplay := by
  rw [(w.work_runner me now e).1]
  rw [step_again (s := ⟨e.audited, w.executor, w.runner⟩) hphase hstop]

/-- What a runner does when its replay or its poll has failed. -/
theorem Watch.work_failed {me : TaskId} {isReplay : Bool} {err : Channel.Error}
    (h : w.outcome me now e = some (isReplay, .error err)) :
    (w.work me now e).runner =
      { w.runner with phase := afterFailure now w.runner isReplay err } := by
  rw [(w.work_runner me now e).1]
  unfold outcome at h
  split at h
  · cases h
  next b call hcall =>
    split at h
    · cases h
    next result hdone =>
      cases h
      have hstep : step now me ⟨e.audited, w.executor, w.runner⟩ =
          stepCall now me ⟨e.audited, w.executor, w.runner⟩ isReplay call := step_of_call hcall
      rw [hstep]
      unfold stepCall
      dsimp only
      rw [hdone]
      rfl

end Soundness

section Promises

variable [Executor ε]

/-- Whatever a client answers and whatever happens to the channel in between, a replay seeks once
and then polls up to the first batch that is empty or the first failure, and brings the commands of
all batches in the order of arrival, or the failure and nothing else.  And whatever else happens to
a runner and whatever its executor does, it hands over the commands of its first replay that
succeeds and those of every poll after it; it ends as it should; and after a failed replay or poll
it looks again at once if the wait was cancelled, and waits if it was for another reason. -/
theorem Watch.hands_over_what_is_read (me : TaskId) (p : Partition) :
    (∀ (withOffsets : Bool) (timeout : Nat) (turns : List (Nat × Endpoint σ)),
      (∀ t ∈ turns, t.2.channel.partition = p) →
      ∀ c, c = Course.run me (.use (.poll (.replay withOffsets) timeout)) turns →
        Obeys (Replaying p withOffsets timeout)
          (Replayed (Channel.SeesShutDown turns) p withOffsets timeout) c.items c.progress ∧
        Call.run me (.use (.poll (.replay withOffsets) timeout)) turns =
          c.progress.map Call.forget id) ∧
    ∀ (timing : Timing) (x : ε) (events : List (Event σ ε)),
      (∀ now e, Event.work now e ∈ events → e.channel.partition = p) →
      ∀ w, w = run me (start timing x) events →
        w.Sound (SeesShutDown events) p timing ∧
        events.foldl (follow me) ({ timing }, { inner := x }) = (w.runner.forget, w.executor) ∧
        ∀ now e isReplay err, w.outcome me now e = some (isReplay, .error err) →
          w.runner.stopRequested = false →
          (err.isCancelled = true → ∀ now' e',
            ((w.work me now e).work me now' e').runner.phase = looking timing isReplay) ∧
          (err.isCancelled = false → err ≠ .closed →
            (w.work me now e).runner.phase =
              .backingOff (now + timing.backoff.ticks) w.runner.stops isReplay) := by
  refine ⟨fun withOffsets timeout turns hp c hc => ?_, fun timing x events hp w hw => ?_⟩
  · subst hc
    exact ⟨run_replays me p withOffsets timeout hp, Course.run_forget me _ turns⟩
  · have hsound : w.Sound (SeesShutDown events) p timing := hw ▸ run_sound me timing x hp
    refine ⟨hsound, hw ▸ run_forget me (start timing x) events, ?_⟩
    intro now e isReplay err houtcome hstop
    have hafter := work_failed houtcome
    refine ⟨fun hcancelled now' e' => ?_, fun hother hopen => ?_⟩
    · have hphase : (w.work me now e).runner.phase = again isReplay := by
        rw [hafter]
        exact if_pos hcancelled
      rw [work_again me hphase (by rw [hafter]; exact hstop), hafter]
      exact congrArg (looking · isReplay) hsound.timed
    · rw [hafter]
      simp [afterFailure, hother, hopen, hstop, hsound.timed]

/-- The channel of the sample, with the reading handle in the hands of its only task and a poll
lined up. -/
def sampleEndpoint (polls : List Service.PollScript) : Endpoint Service where
  client := { script := { polls } }
  channel := { partition := ⟨"jobs", 0⟩, line := [0] }

theorem isEntity_orders : IsEntity "orders" := by decide

/-- A command, a tombstone under its id, and the command again. -/
def sampleBatch : CommandBatch :=
  let id : CommandId := ⟨.table, "orders", .create, isEntity_orders⟩
  ⟨[⟨⟨"jobs", 0⟩, 0, id, some { statement := "CREATE" }⟩, ⟨⟨"jobs", 0⟩, 1, id, none⟩,
    ⟨⟨"jobs", 0⟩, 2, id, some { statement := "CREATE" }⟩]⟩

/-- The channel at each step of a replay: two steps before its polls, of which the second one brings
nothing. -/
def sampleReplay : List (Endpoint Service) :=
  [sampleEndpoint [], sampleEndpoint [], sampleEndpoint [.records sampleBatch],
    sampleEndpoint [.records .empty]]

/-- The channel at each step of a runner: its first replay is interrupted, the second one succeeds,
and the first poll finds the channel shut down. -/
def sampleCourse : List (Endpoint Service) :=
  [sampleEndpoint [], sampleEndpoint [], sampleEndpoint [], sampleEndpoint [.error .wakeup],
    sampleEndpoint []] ++ sampleReplay ++ List.replicate 6 (sampleEndpoint []) ++
  [⟨{}, { partition := ⟨"jobs", 0⟩, isShutDown := true }⟩]

theorem sampleCourse_partition : ∀ e ∈ sampleCourse, e.channel.partition = ⟨"jobs", 0⟩ := by
  decide

/-- The turns of the replay. -/
def sampleTurns : List (Nat × Endpoint Service) :=
  sampleReplay.map fun e => (0, e)

/-- The steps of the runner. -/
def sampleEvents : List (Event Service Engine) :=
  sampleCourse.map (.work 0)

/-- In the sample the replay brings the command twice, and the runner hands it over twice before it
ends. -/
theorem Watch.hands_over_what_is_read_sample :
    (∃ cs, Replayed (Channel.SeesShutDown sampleTurns) ⟨"jobs", 0⟩ true 0
        (Course.run 0 (.replayWithOffsets 0) sampleTurns).items (.ok (.commands cs)) ∧
      cs.map (·.sequence) = [some 0, some 2]) ∧
    (run 0 (start {} {}) sampleEvents).Sound (SeesShutDown sampleEvents) ⟨"jobs", 0⟩ {} ∧
    (run 0 (start {} {}) sampleEvents).executor.handed.map (·.sequence) = [some 0, some 2] ∧
    (run 0 (start {} {}) sampleEvents).runner.result? =
      some (.ok { replayed := 2, lastOffset := some 2 }) := by
  obtain ⟨hreplay, hrunner⟩ :=
    hands_over_what_is_read (σ := Service) (ε := Engine) 0 ⟨"jobs", 0⟩
  refine ⟨⟨_, (hreplay true 0 sampleTurns (by decide) _ rfl).1, rfl⟩,
    (hrunner {} {} sampleEvents (fun now e he => ?_) _ rfl).1, by decide +kernel, by decide +kernel⟩
  obtain ⟨e', he', hwork⟩ := List.mem_map.1 he
  cases hwork
  exact sampleCourse_partition e he'

end Promises

end Runner
end ReplicatedLog
