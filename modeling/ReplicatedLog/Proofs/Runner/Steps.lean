import ReplicatedLog.Runner.Basic

/-!
# The steps of a runner

What a runner on any client can do in a step, said once, so that what a step keeps is
shown case by case.

* `Phase.call?` is the replay or the poll that a runner has in progress, and
  `looking` the phase in which it begins with one;
* `afterFailure_cases` and `afterCall_call?` say what follows a replay or a poll,
  and `apply_runner` what follows the handing over of a command;
* `Moves` lists the steps with what each of them needs, and `step_moves`: a step is one
  of them;
* `step_runner` and `step_endpoint` say what a step leaves as it is.
-/

namespace ReplicatedLog
namespace Runner

variable {σ ε : Type} [Client σ]

section Calls

/-- The replay or the poll in progress; whether it is a replay comes first. -/
def Phase.call? : Phase σ → Option (Bool × Channel.Call σ)
  | .replaying call => some (true, call)
  | .polling call => some (false, call)
  | _ => none

theorem Phase.call?_some {phase : Phase σ} {isReplay : Bool} {call : Channel.Call σ}
    (h : phase.call? = some (isReplay, call)) :
    (isReplay = true ∧ phase = .replaying call) ∨ (isReplay = false ∧ phase = .polling call) := by
  cases phase with
  | replaying c =>
      cases h
      exact Or.inl ⟨rfl, rfl⟩
  | polling c =>
      cases h
      exact Or.inr ⟨rfl, rfl⟩
  | restoring => cases h
  | applying todo isReplay start => cases h
  | tailing => cases h
  | backingOff deadline stops isReplay => cases h
  | finished result => cases h

/-- The phase in which a runner begins to replay or to poll. -/
def looking (timing : Timing) (isReplay : Bool) : Phase σ :=
  if isReplay then .replaying (.entered (.replayWithOffsets timing.replayPoll.ticks))
  else .polling (.entered (.pollCommands timing.poll.ticks))

theorem again_call? (isReplay : Bool) : (again isReplay : Phase σ).call? = none := by
  cases isReplay <;> rfl

theorem again_ne_finished (isReplay : Bool) (result : Except RunnerError Tally) :
    (again isReplay : Phase σ) ≠ .finished result := by
  cases isReplay <;> nofun

/-- What a runner does after a failure: it looks again at once, ends, or waits. -/
theorem afterFailure_cases (now : Nat) (r : Runner σ) (isReplay : Bool) (err : Channel.Error) :
    afterFailure now r isReplay err = again isReplay ∧
        (err.isCancelled = true ∨ r.stopRequested = true) ∨
      afterFailure now r isReplay err = .finished (.ok r.tally) ∧ err = .closed ∨
      afterFailure now r isReplay err =
          .backingOff (now + r.timing.backoff.ticks) r.stops isReplay ∧
        err.isCancelled = false ∧ err ≠ .closed ∧ r.stopRequested = false := by
  unfold afterFailure
  split
  next hcancelled => exact Or.inl ⟨rfl, Or.inl hcancelled⟩
  next hother =>
    split
    next hclosed => exact Or.inr (Or.inl ⟨rfl, hclosed⟩)
    next hopen =>
      split
      next hstop => exact Or.inl ⟨rfl, Or.inr hstop⟩
      next hstop =>
        exact Or.inr (Or.inr ⟨rfl, Bool.eq_false_iff.2 hother, hopen, Bool.eq_false_iff.2 hstop⟩)

/-- What follows a replay or a poll: what it has brought is to be handed over, or it has failed. -/
theorem afterCall_cases (now : Nat) (r : Runner σ) (isReplay : Bool) (result : Channel.Result) :
    (∃ reply, result = .ok reply ∧
        ∃ todo, afterCall now r isReplay result = .applying todo isReplay none) ∨
      ∃ err, result = .error err ∧
        afterCall now r isReplay result = afterFailure now r isReplay err := by
  cases result with
  | ok reply => cases reply <;> exact Or.inl ⟨_, rfl, _, rfl⟩
  | error err => exact Or.inr ⟨err, rfl, rfl⟩

/-- A replay or a poll that is over is no longer in progress. -/
theorem afterCall_call? (now : Nat) (r : Runner σ) (isReplay : Bool) (result : Channel.Result) :
    (afterCall now r isReplay result).call? = none := by
  rcases afterCall_cases now r isReplay result with ⟨reply, -, todo, h⟩ | ⟨err, -, h⟩
  · rw [h]
    rfl
  · rw [h]
    rcases afterFailure_cases now r isReplay err with ⟨h, -⟩ | ⟨h, -⟩ | ⟨h, -⟩
    · rw [h]
      exact again_call? isReplay
    · rw [h]
      rfl
    · rw [h]
      rfl

/-- A step of a replay or a poll goes on with it, unless it is over then. -/
theorem stepCall_call? (now : Nat) (me : TaskId) (s : State σ ε) (isReplay : Bool)
    (call : Channel.Call σ) :
    (stepCall now me s isReplay call).runner.phase.call? =
      match (call.step now me s.endpoint).1 with
      | .waiting call' => some (isReplay, call')
      | .done _ => none := by
  unfold stepCall
  rcases call.step now me s.endpoint with ⟨progress, after⟩
  cases progress with
  | waiting call' => cases isReplay <;> rfl
  | done result => exact afterCall_call? now s.runner isReplay result

end Calls

section Steps

variable [Executor ε] {now : Nat} {me : TaskId} {s : State σ ε}

/-- After a command has been handed over the others are to be handed over, unless the executor has
broken down. -/
theorem apply_runner (s : State σ ε) (q : QueuedCommand) (later : List QueuedCommand)
    (isReplay : Bool) :
    ∃ phase tally, (apply s q later isReplay).runner = { s.runner with phase, tally } ∧
      (phase = .applying later isReplay none ∨ ∃ err, phase = .finished (.error err)) := by
  unfold apply
  rcases Executor.execute s.executor q with ⟨verdict, x⟩
  cases verdict with
  | succeeded => exact ⟨_, _, rfl, Or.inl rfl⟩
  | failed reason => exact ⟨_, _, rfl, Or.inl rfl⟩
  | brokeDown => exact ⟨_, _, rfl, Or.inr ⟨_, rfl⟩⟩

/-- A step of a replay or a poll. -/
theorem step_of_call {isReplay : Bool} {call : Channel.Call σ}
    (h : s.runner.phase.call? = some (isReplay, call)) :
    step now me s = stepCall now me s isReplay call := by
  unfold step
  rcases Phase.call?_some h with ⟨rfl, hphase⟩ | ⟨rfl, hphase⟩
  · rw [hphase]
  · rw [hphase]

/-- A runner that is about to replay or to poll begins with it. -/
theorem step_again {isReplay : Bool} (hphase : s.runner.phase = again isReplay)
    (hstop : s.runner.stopRequested = false) :
    step now me s =
      { s with runner := { s.runner with phase := looking s.runner.timing isReplay } } := by
  unfold step
  cases isReplay with
  | true => simp [hphase, again, hstop, looking]
  | false => simp [hphase, again, hstop, looking]

/-- A runner that is about to replay or to poll ends, if it was asked to stop. -/
theorem step_again_of_stop {isReplay : Bool} (hphase : s.runner.phase = again isReplay)
    (hstop : s.runner.stopRequested = true) :
    step now me s =
      { s with runner := { s.runner with phase := .finished (.ok s.runner.tally) } } := by
  unfold step
  cases isReplay with
  | true => simp [hphase, again, hstop]
  | false => simp [hphase, again, hstop]

/-- The steps of a runner, with the states that they lead to. -/
inductive Moves (now : Nat) (me : TaskId) (s : State σ ε) : State σ ε → Prop
  /-- It was asked to stop, and ends before a replay or a poll. -/
  | ends (isReplay : Bool) (hphase : s.runner.phase = again isReplay)
      (hstop : s.runner.stopRequested = true) :
      Moves now me s
        { s with runner := { s.runner with phase := .finished (.ok s.runner.tally) } }
  /-- It begins with a replay or a poll. -/
  | begins (isReplay : Bool) (hphase : s.runner.phase = again isReplay)
      (hstop : s.runner.stopRequested = false) :
      Moves now me s
        { s with runner := { s.runner with phase := looking s.runner.timing isReplay } }
  /-- It goes on with a replay or a poll. -/
  | calls (isReplay : Bool) (call : Channel.Call σ)
      (hcall : s.runner.phase.call? = some (isReplay, call)) :
      Moves now me s (stepCall now me s isReplay call)
  /-- It has handed over all that it has been brought. -/
  | runsOut (isReplay : Bool) (start : Option Nat)
      (hphase : s.runner.phase = .applying [] isReplay start) :
      Moves now me s { s with runner := { s.runner with phase := .tailing } }
  /-- It turns to the next command, which takes its time. -/
  | takesUp (q : QueuedCommand) (later : List QueuedCommand) (isReplay : Bool)
      (hphase : s.runner.phase = .applying (q :: later) isReplay none) :
      Moves now me s
        { s with
          runner := { s.runner with
            phase := .applying (q :: later) isReplay
              (some (now + Executor.delay s.executor q)) } }
  /-- It hands over a command. -/
  | hands (q : QueuedCommand) (later : List QueuedCommand) (isReplay : Bool) (start : Nat)
      (hphase : s.runner.phase = .applying (q :: later) isReplay (some start))
      (hdue : start ≤ now) : Moves now me s (apply s q later isReplay)
  /-- It has waited after a failure, and looks again. -/
  | recovers (deadline stops : Nat) (isReplay : Bool)
      (hphase : s.runner.phase = .backingOff deadline stops isReplay)
      (hdue : deadline ≤ now ∨ s.runner.stops ≠ stops) :
      Moves now me s { s with runner := { s.runner with phase := again isReplay } }
  /-- It has no reason to do anything. -/
  | rests (hready : ready now me s = false) (hcall : s.runner.phase.call? = none) : Moves now me s s

/-- A step of a runner is one of its moves. -/
theorem step_moves (now : Nat) (me : TaskId) (s : State σ ε) : Moves now me s (step now me s) := by
  have hagain : ∀ isReplay, s.runner.phase = again isReplay → Moves now me s (step now me s) := by
    intro isReplay hphase
    cases hstop : s.runner.stopRequested with
    | true =>
        rw [step_again_of_stop hphase hstop]
        exact .ends isReplay hphase hstop
    | false =>
        rw [step_again hphase hstop]
        exact .begins isReplay hphase hstop
  have hcalls : ∀ isReplay call, s.runner.phase.call? = some (isReplay, call) →
      Moves now me s (step now me s) := by
    intro isReplay call hcall
    rw [step_of_call hcall]
    exact .calls isReplay call hcall
  have hrests : ready now me s = false → s.runner.phase.call? = none → step now me s = s →
      Moves now me s (step now me s) := by
    intro hready hcall hsame
    rw [hsame]
    exact .rests hready hcall
  cases hphase : s.runner.phase with
  | restoring => exact hagain true hphase
  | tailing => exact hagain false hphase
  | replaying call => exact hcalls true call (by rw [hphase]; rfl)
  | polling call => exact hcalls false call (by rw [hphase]; rfl)
  | applying todo isReplay start =>
      cases todo with
      | nil =>
          simp only [step, hphase]
          exact .runsOut isReplay start hphase
      | cons q later =>
          cases start with
          | none =>
              simp only [step, hphase]
              exact .takesUp q later isReplay hphase
          | some start =>
              by_cases hdue : start ≤ now
              · simp only [step, hphase, if_pos hdue]
                exact .hands q later isReplay start hphase hdue
              · refine hrests ?_ (by rw [hphase]; rfl) ?_
                · simp [ready, hphase, hdue]
                · simp only [step, hphase, if_neg hdue]
  | backingOff deadline stops isReplay =>
      by_cases hdue : deadline ≤ now ∨ s.runner.stops ≠ stops
      · simp only [step, hphase, if_pos hdue]
        exact .recovers deadline stops isReplay hphase hdue
      · refine hrests ?_ (by rw [hphase]; rfl) ?_
        · simpa [ready, hphase] using hdue
        · simp only [step, hphase, if_neg hdue]
  | finished result =>
      refine hrests ?_ (by rw [hphase]; rfl) ?_
      · simp only [ready, hphase]
      · simp only [step, hphase]

/-- A step changes nothing but the phase and the tally of a runner. -/
theorem step_runner (now : Nat) (me : TaskId) (s : State σ ε) :
    ∃ phase tally, (step now me s).runner = { s.runner with phase, tally } := by
  have hmoves := step_moves now me s
  generalize step now me s = s' at hmoves ⊢
  cases hmoves with
  | hands q later isReplay start hphase hdue =>
      obtain ⟨phase, tally, hrunner, -⟩ := apply_runner s q later isReplay
      exact ⟨phase, tally, hrunner⟩
  | ends isReplay hphase hstop => exact ⟨_, _, rfl⟩
  | begins isReplay hphase hstop => exact ⟨_, _, rfl⟩
  | calls isReplay call hcall => exact ⟨_, _, rfl⟩
  | runsOut isReplay start hphase => exact ⟨_, _, rfl⟩
  | takesUp q later isReplay hphase => exact ⟨_, _, rfl⟩
  | recovers deadline stops isReplay hphase hdue => exact ⟨_, _, rfl⟩
  | rests hready hcall => exact ⟨_, _, rfl⟩

/-- A step outside of replays and polls does nothing on the channel, and at most begins with one. -/
theorem step_rest (now : Nat) (me : TaskId) (h : s.runner.phase.call? = none) :
    (step now me s).endpoint = s.endpoint ∧
      ∀ isReplay call, (step now me s).runner.phase.call? = some (isReplay, call) →
        ∃ purpose timeout, call = .entered (.use (.poll purpose timeout)) := by
  have hmoves := step_moves now me s
  generalize step now me s = s' at hmoves ⊢
  have hnone : s'.runner.phase.call? = none → ∀ isReplay call,
      s'.runner.phase.call? = some (isReplay, call) →
        ∃ purpose timeout, call = .entered (.use (.poll purpose timeout)) :=
    fun hover isReplay call hcall => absurd (hover.symm.trans hcall) nofun
  cases hmoves with
  | begins isReplay hphase hstop =>
      refine ⟨rfl, fun isReplay' call hcall => ?_⟩
      cases isReplay <;> cases hcall <;> exact ⟨_, _, rfl⟩
  | calls isReplay call hcall => exact absurd (h.symm.trans hcall) nofun
  | ends isReplay hphase hstop => exact ⟨rfl, hnone rfl⟩
  | runsOut isReplay start hphase => exact ⟨rfl, hnone rfl⟩
  | takesUp q later isReplay hphase => exact ⟨rfl, hnone rfl⟩
  | hands q later isReplay start hphase hdue =>
      obtain ⟨phase, tally, hrunner, hafter⟩ := apply_runner s q later isReplay
      refine ⟨rfl, hnone ?_⟩
      rw [hrunner]
      rcases hafter with rfl | ⟨err, rfl⟩
      · rfl
      · rfl
  | recovers deadline stops isReplay hphase hdue => exact ⟨rfl, hnone (again_call? isReplay)⟩
  | rests hready hcall => exact ⟨rfl, hnone hcall⟩

/-- A step leaves the channel as it is, unless it is one of a replay or a poll. -/
theorem step_endpoint (now : Nat) (me : TaskId) (s : State σ ε) :
    (step now me s).endpoint = s.endpoint ∨
      ∃ call : Channel.Call σ, (step now me s).endpoint = (call.step now me s.endpoint).2 := by
  cases hcall : s.runner.phase.call? with
  | none => exact .inl (step_rest now me hcall).1
  | some c =>
      rw [step_of_call hcall]
      exact .inr ⟨c.2, rfl⟩

end Steps

end Runner
end ReplicatedLog
