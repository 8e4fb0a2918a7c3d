import ReplicatedLog.Proofs.Channel.Shared
import ReplicatedLog.Proofs.Runner.Steps

/-!
# What a runner has handed over

A runner on a shared log hands over the commands of the log in their order, each
once, whatever its executor does with them.

* `Runner.handedBy` is the command that a step hands over, if it hands over one;
* `Phase.Delivers` says, phase by phase, how what has been handed over so far relates
  to the log and to the reader of the channel;
* `step_delivers`: a step of a runner keeps that, and `Delivers.keeps`: so does
  whatever leaves the reader in its place;
* `Tally.Counts` and `step_counted`: the tally of a runner counts what it has handed
  over.
-/

namespace ReplicatedLog
namespace Runner

open Channel

section Phases

/-- What has been handed over in a phase: nothing before a replay has succeeded, and from then on,
with what is still to be handed over, the commands of all entries that the reader has passed. -/
def Phase.Delivers (e : Endpoint SharedLog) (handed : List QueuedCommand) :
    Phase SharedLog → Prop
  | .restoring => handed = [] ∧ ∃ n, e.ReaderAt n
  | .replaying call =>
      handed = [] ∧ (∃ n, e.ReaderAt n) ∧ call.Told e ∧
        ∃ timeout, call.Serves (.replayWithOffsets timeout)
  | .applying todo _ _ => ∃ n, e.ReaderAt n ∧ e.Tells n (handed ++ todo)
  | .tailing => ∃ n, e.ReaderAt n ∧ e.Tells n handed
  | .polling call =>
      (∃ n, e.ReaderAt n ∧ e.Tells n handed) ∧ ∃ timeout, call.Serves (.pollCommands timeout)
  | .backingOff _ _ true => handed = [] ∧ ∃ n, e.ReaderAt n
  | .backingOff _ _ false => ∃ n, e.ReaderAt n ∧ e.Tells n handed
  | .finished _ => ∃ n, e.Tells n handed

/-- The runner has not yet replayed the partition. -/
def Phase.IsRestoring : Phase SharedLog → Prop
  | .restoring | .replaying _ | .backingOff _ _ true => True
  | _ => False

/-- The runner has handed over what its replay and its polls have brought, and looks for more. -/
def Phase.IsTailing : Phase SharedLog → Prop
  | .tailing | .polling _ | .backingOff _ _ false => True
  | _ => False

variable {e e' : Endpoint SharedLog} {handed : List QueuedCommand} {phase : Phase SharedLog}

theorem Phase.Delivers.of_restoring (h : phase.Delivers e handed) (hr : phase.IsRestoring) :
    handed = [] := by
  cases phase with
  | restoring => exact h.1
  | replaying call => exact h.1
  | backingOff deadline stops isReplay =>
      cases isReplay with
      | true => exact h.1
      | false => cases hr
  | applying todo isReplay start => cases hr
  | tailing => cases hr
  | polling call => cases hr
  | finished result => cases hr

theorem Phase.Delivers.of_tailing (h : phase.Delivers e handed) (ht : phase.IsTailing) :
    ∃ n, e.ReaderAt n ∧ e.Tells n handed := by
  cases phase with
  | tailing => exact h
  | polling call => exact h.1
  | backingOff deadline stops isReplay =>
      cases isReplay with
      | true => cases ht
      | false => exact h
  | restoring => cases ht
  | replaying call => cases ht
  | applying todo isReplay start => cases ht
  | finished result => cases ht

/-- What leaves the reader in its place leaves what has been handed over told. -/
theorem Phase.Delivers.keeps (h : phase.Delivers e handed) (hk : e.Keeps e') :
    phase.Delivers e' handed := by
  have hat : (∃ n, e.ReaderAt n) → ∃ n, e'.ReaderAt n := fun ⟨n, hn⟩ => ⟨n, hk.readerAt hn⟩
  have htold : ∀ {cs}, (∃ n, e.ReaderAt n ∧ e.Tells n cs) → ∃ n, e'.ReaderAt n ∧ e'.Tells n cs :=
    fun ⟨n, hn, ht⟩ => ⟨n, hk.readerAt hn, hk.toFollows.tells ht⟩
  cases phase with
  | restoring => exact ⟨h.1, hat h.2⟩
  | replaying call => exact ⟨h.1, hat h.2.1, h.2.2.1.keeps hk, h.2.2.2⟩
  | applying todo isReplay start => exact htold h
  | tailing => exact htold h
  | polling call => exact ⟨htold h.1, h.2⟩
  | backingOff deadline stops isReplay =>
      cases isReplay with
      | true => exact ⟨h.1, hat h.2⟩
      | false => exact htold h
  | finished result =>
      obtain ⟨n, ht⟩ := h
      exact ⟨n, hk.toFollows.tells ht⟩

/-- In every phase what has been handed over is told by the first entries of the partition. -/
theorem Phase.Delivers.tells (h : phase.Delivers e handed) : ∃ n, e.Tells n handed := by
  have hnothing : handed = [] → ∃ n, e.Tells n handed := by
    rintro rfl
    exact ⟨0, .zero _ _ _⟩
  cases phase with
  | restoring => exact hnothing h.1
  | replaying call => exact hnothing h.1
  | applying todo isReplay start =>
      obtain ⟨n, -, ht⟩ := h
      obtain ⟨m, -, hm⟩ := ht.of_append
      exact ⟨m, hm⟩
  | tailing =>
      obtain ⟨n, -, ht⟩ := h
      exact ⟨n, ht⟩
  | polling call =>
      obtain ⟨⟨n, -, ht⟩, -⟩ := h
      exact ⟨n, ht⟩
  | backingOff deadline stops isReplay =>
      cases isReplay with
      | true => exact hnothing h.1
      | false =>
          obtain ⟨n, -, ht⟩ := h
          exact ⟨n, ht⟩
  | finished result => exact h

end Phases

section Calls

variable {now : Nat} {r : Runner SharedLog} {e : Endpoint SharedLog}
  {handed : List QueuedCommand}

/-- After a replay or a poll that has failed the reader is where it was, and the runner tries again,
waits, or ends. -/
theorem delivers_afterFailure (isReplay : Bool)
    (h : (again isReplay : Phase SharedLog).Delivers e handed) (err : Channel.Error) :
    (afterFailure now r isReplay err).Delivers e handed := by
  rcases afterFailure_cases now r isReplay err with ⟨hphase, -⟩ | ⟨hphase, -⟩ | ⟨hphase, -⟩
  · rw [hphase]
    exact h
  · rw [hphase]
    exact h.tells
  · rw [hphase]
    cases isReplay with
    | true => exact h
    | false => exact h

variable {ε : Type} {me : TaskId} {s : State SharedLog ε} {call : Call SharedLog}

/-- A step of a replay hands over nothing; when the replay succeeds, all that it has brought is
still to be handed over. -/
theorem stepCall_delivers_replay (hat : ∃ n, s.endpoint.ReaderAt n) (ht : call.Told s.endpoint)
    (hs : ∃ timeout, call.Serves (.replayWithOffsets timeout)) :
    (stepCall now me s true call).runner.phase.Delivers
      (stepCall now me s true call).endpoint [] := by
  obtain ⟨timeout, hs⟩ := hs
  obtain ⟨hat', htold⟩ := Call.step_told now me hat ht
  have hf := Call.step_follows now me s.endpoint call
  unfold stepCall
  rcases hstep : call.step now me s.endpoint with ⟨progress, e'⟩
  rw [hstep] at hat' htold hf
  cases progress with
  | waiting call' =>
      exact ⟨rfl, hat', htold call' rfl, timeout,
        Call.step_serves hs (congrArg Prod.fst hstep)⟩
  | done result =>
      cases result with
      | error err => exact delivers_afterFailure true ⟨rfl, hat'⟩ err
      | ok reply =>
          obtain ⟨restored, p, rfl⟩ := Call.polling_of_ok hs (congrArg Prod.fst hstep)
          obtain ⟨hreply, n, hn, hread, -⟩ :=
            Call.step_replayed now me ht (congrArg Prod.fst hstep)
          rw [hstep] at hread
          subst hreply
          exact ⟨n, hread, hf.tells hn⟩

/-- A step of a poll hands over nothing; what it has brought is still to be handed over. -/
theorem stepCall_delivers_tail (h : ∃ n, s.endpoint.ReaderAt n ∧ s.endpoint.Tells n handed)
    (hs : ∃ timeout, call.Serves (.pollCommands timeout)) :
    (stepCall now me s false call).runner.phase.Delivers
      (stepCall now me s false call).endpoint handed := by
  obtain ⟨timeout, hs⟩ := hs
  obtain ⟨n, hat, ht⟩ := h
  have hf := Call.step_follows now me s.endpoint call
  have htails := Call.step_tails now me hs (by simp) hat
  unfold stepCall
  rcases hstep : call.step now me s.endpoint with ⟨progress, e'⟩
  rw [hstep] at hf htails
  rcases htails with ⟨b, hb, htakes, hmoved⟩ | ⟨hnone, hsame⟩
  · dsimp only at hb
    subst hb
    exact ⟨_, hmoved, hf.tells (ht.takes htakes)⟩
  · cases progress with
    | waiting call' =>
        exact ⟨⟨n, hsame, hf.tells ht⟩, timeout, Call.step_serves hs (congrArg Prod.fst hstep)⟩
    | done result =>
        cases result with
        | error err => exact delivers_afterFailure false ⟨n, hsame, hf.tells ht⟩ err
        | ok reply => exact absurd rfl (hnone reply)

end Calls

section Steps

variable {ε : Type} {now : Nat} {me : TaskId} {s : State SharedLog ε}
  {handed : List QueuedCommand}

/-- What a step does that hands over nothing: it leaves the executor and the tally, and ends the
runner with its tally or not at all. -/
structure Idle (s s' : State SharedLog ε) : Prop where
  executor : s'.executor = s.executor
  tally : s'.runner.tally = s.runner.tally
  ended : ∀ result, s.runner.phase = .finished result → s'.runner.phase = .finished result
  ends : ∀ result, s'.runner.phase = .finished result →
    result = .ok s.runner.tally ∨ s.runner.phase = .finished result

theorem Idle.refl (s : State SharedLog ε) : Idle s s :=
  ⟨rfl, rfl, fun _ h => h, fun _ h => Or.inr h⟩

/-- A change of the phase alone that does not end the runner but with its tally. -/
theorem Idle.of_phase {s' : State SharedLog ε} (hx : s'.executor = s.executor)
    (ht : s'.runner.tally = s.runner.tally)
    (hs : ∀ result, s.runner.phase ≠ .finished result)
    (he : ∀ result, s'.runner.phase = .finished result → result = .ok s.runner.tally) :
    Idle s s' :=
  ⟨hx, ht, fun result h => absurd h (hs result), fun result h => Or.inl (he result h)⟩

theorem afterCall_finished {r : Runner SharedLog} {isReplay : Bool} {result : Channel.Result}
    {final : Except RunnerError Tally}
    (h : afterCall now r isReplay result = .finished final) : final = .ok r.tally := by
  rcases afterCall_cases now r isReplay result with ⟨reply, -, todo, hphase⟩ | ⟨err, -, hfailure⟩
  · rw [hphase] at h
    cases h
  · rw [hfailure] at h
    rcases afterFailure_cases now r isReplay err with ⟨hphase, -⟩ | ⟨hphase, -⟩ | ⟨hphase, -⟩
    · rw [hphase] at h
      exact absurd h (again_ne_finished isReplay final)
    · rw [hphase] at h
      cases h
      rfl
    · rw [hphase] at h
      cases h

theorem stepCall_idle {isReplay : Bool} {call : Call SharedLog}
    (hs : ∀ result, s.runner.phase ≠ .finished result) :
    Idle s (stepCall now me s isReplay call) := by
  refine .of_phase rfl rfl hs fun result h => ?_
  unfold stepCall at h
  dsimp only at h
  split at h
  · split at h <;> cases h
  · exact afterCall_finished h

variable [Executor ε]

/-- The command that a step of a runner hands over, if it hands over one. -/
def handedBy (now : Nat) (r : Runner SharedLog) : Option QueuedCommand :=
  match r.phase with
  | .applying (q :: _) _ (some start) => if start ≤ now then some q else none
  | _ => none

theorem handedBy_again {r : Runner SharedLog} {isReplay : Bool} (h : r.phase = again isReplay)
    (now : Nat) : handedBy now r = none := by
  rw [handedBy, h]
  cases isReplay <;> rfl

omit [Executor ε] in
theorem handedBy_of_not_ready (h : ready now me s = false) : handedBy now s.runner = none := by
  unfold handedBy
  split
  next q later isReplay start hphase =>
    have hlater : ¬ start ≤ now := by simpa [ready, hphase] using h
    rw [if_neg hlater]
  next => rfl

/-- A step of a runner keeps what it has handed over told. -/
theorem step_delivers (h : s.runner.phase.Delivers s.endpoint handed) :
    (step now me s).runner.phase.Delivers (step now me s).endpoint
      (handed ++ (handedBy now s.runner).toList) := by
  have hmoves := step_moves now me s
  generalize step now me s = s' at hmoves ⊢
  have hidle : handedBy now s.runner = none → s'.runner.phase.Delivers s'.endpoint handed →
      s'.runner.phase.Delivers s'.endpoint (handed ++ (handedBy now s.runner).toList) := by
    intro hnone hkept
    rwa [hnone, Option.toList_none, List.append_nil]
  cases hmoves with
  | ends isReplay hphase hstop => exact hidle (handedBy_again hphase now) h.tells
  | begins isReplay hphase hstop =>
      refine hidle (handedBy_again hphase now) ?_
      rw [hphase] at h
      cases isReplay with
      | true => exact ⟨h.1, h.2, trivial, _, rfl⟩
      | false => exact ⟨h, _, rfl⟩
  | calls isReplay call hcall =>
      rcases Phase.call?_some hcall with ⟨rfl, hphase⟩ | ⟨rfl, hphase⟩
      · rw [hphase] at h
        obtain ⟨rfl, hat, ht, hs⟩ := h
        exact hidle (by rw [handedBy, hphase]) (stepCall_delivers_replay hat ht hs)
      · rw [hphase] at h
        exact hidle (by rw [handedBy, hphase]) (stepCall_delivers_tail h.1 h.2)
  | runsOut isReplay start hphase =>
      rw [hphase] at h
      obtain ⟨n, hat, ht⟩ := h
      rw [List.append_nil] at ht
      exact hidle (by rw [handedBy, hphase]) ⟨n, hat, ht⟩
  | takesUp q later isReplay hphase =>
      rw [hphase] at h
      exact hidle (by rw [handedBy, hphase]) h
  | hands q later isReplay start hphase hdue =>
      rw [hphase] at h
      obtain ⟨n, hat, ht⟩ := h
      have happ : s.endpoint.Tells n (handed ++ [q] ++ later) := by simpa using ht
      have hq : handedBy now s.runner = some q := by
        rw [handedBy, hphase]
        exact if_pos hdue
      obtain ⟨phase, tally, hrunner, hafter⟩ := apply_runner s q later isReplay
      rw [hq, hrunner, Option.toList_some]
      rcases hafter with rfl | ⟨err, rfl⟩
      · exact ⟨n, hat, happ⟩
      · obtain ⟨m, -, hm⟩ := happ.of_append
        exact ⟨m, hm⟩
  | recovers deadline stops isReplay hphase hdue =>
      refine hidle (by rw [handedBy, hphase]) ?_
      rw [hphase] at h
      cases isReplay with
      | true => exact h
      | false => exact h
  | rests hready hcall => exact hidle (handedBy_of_not_ready hready) h

/-- A step that hands over a command is one of handing it over. -/
theorem step_hands (me : TaskId) {q : QueuedCommand} (h : handedBy now s.runner = some q) :
    ∃ later isReplay, step now me s = apply s q later isReplay := by
  unfold handedBy at h
  unfold step
  split at h
  next q' later isReplay start hp =>
    split at h
    next hstart =>
      cases h
      rw [hp]
      exact ⟨later, isReplay, by simp [hstart]⟩
    next => cases h
  next => cases h

/-- A step that hands over nothing. -/
theorem step_idle (me : TaskId) (h : handedBy now s.runner = none) : Idle s (step now me s) := by
  have hmoves := step_moves now me s
  generalize step now me s = s' at hmoves ⊢
  cases hmoves with
  | ends isReplay hphase hstop =>
      refine .of_phase rfl rfl (by simp [hphase, again_ne_finished]) fun result he => ?_
      cases he
      rfl
  | begins isReplay hphase hstop =>
      refine .of_phase rfl rfl (by simp [hphase, again_ne_finished]) fun result he => ?_
      cases isReplay <;> cases he
  | calls isReplay call hcall =>
      refine stepCall_idle fun result hend => ?_
      rw [hend] at hcall
      cases hcall
  | runsOut isReplay start hphase => exact .of_phase rfl rfl (by simp [hphase]) (by simp)
  | takesUp q later isReplay hphase => exact .of_phase rfl rfl (by simp [hphase]) (by simp)
  | hands q later isReplay start hphase hdue =>
      rw [handedBy, hphase] at h
      exact absurd ((if_pos hdue).symm.trans h) nofun
  | recovers deadline stops isReplay hphase hdue =>
      exact .of_phase rfl rfl (by simp [hphase]) (by simp [again_ne_finished])
  | rests hready hcall => exact .refl s

/-- The executor of a runner has executed what a step has handed over, and nothing else. -/
theorem step_executor (now : Nat) (me : TaskId) (s : State SharedLog ε) :
    (step now me s).executor =
      (handedBy now s.runner).elim s.executor fun q => (Executor.execute s.executor q).2 := by
  cases h : handedBy now s.runner with
  | some q =>
      obtain ⟨later, isReplay, hstep⟩ := step_hands me h
      rw [hstep]
      rfl
  | none => exact (step_idle me h).executor

/-- A step of a runner lets the log grow only, and leaves the channel on its partition. -/
theorem step_follows (s : State SharedLog ε) : s.endpoint.Follows (step now me s).endpoint := by
  rcases step_endpoint now me s with hsame | ⟨call, hstep⟩
  · rw [hsame]
    exact .refl _
  · rw [hstep]
    exact Call.step_follows now me s.endpoint call

end Steps

end Runner

section Recording

/-- An executor that notes what it is handed and what becomes of it. -/
structure Recorder (ε : Type) where
  inner : ε
  notes : List (QueuedCommand × Verdict) := []

instance {ε : Type} [Executor ε] : Executor (Recorder ε) where
  delay x q := Executor.delay x.inner q
  execute x q :=
    let (verdict, inner) := Executor.execute x.inner q
    (verdict, ⟨inner, x.notes ++ [(q, verdict)]⟩)

/-- The commands that have been handed to an executor. -/
def Recorder.handed {ε : Type} (x : Recorder ε) : List QueuedCommand :=
  x.notes.map Prod.fst

/-- The executor has refused the command. -/
def Verdict.isRefusal : Verdict → Bool
  | .failed _ => true
  | _ => false

/-- A tally counts notes: each of a command on which the executor has not broken down, with those
that it has refused apart, and the last offset of them. -/
structure Tally.Counts (t : Tally) (notes : List (QueuedCommand × Verdict)) : Prop where
  total : t.replayed + t.executed + t.failed =
    (notes.filter fun note => note.2 ≠ .brokeDown).length
  failed : t.failed = (notes.filter fun note => note.2.isRefusal).length
  lastOffset : t.lastOffset =
    (notes.filter fun note => note.2 ≠ .brokeDown).reverse.findSome? fun note => note.1.sequence

namespace Tally.Counts

variable {t : Tally} {notes : List (QueuedCommand × Verdict)}

theorem zero : ({} : Tally).Counts [] :=
  ⟨rfl, rfl, rfl⟩

/-- A command on which the executor breaks down is not counted. -/
theorem brokeDown (h : t.Counts notes) (q : QueuedCommand) :
    t.Counts (notes ++ [(q, .brokeDown)]) := by
  refine ⟨?_, ?_, ?_⟩
  · simpa using h.total
  · simpa [Verdict.isRefusal] using h.failed
  · simpa using h.lastOffset

theorem findSome?_more {q : QueuedCommand} {verdict : Verdict} (hv : verdict ≠ .brokeDown) :
    ((notes ++ [(q, verdict)]).filter fun note => note.2 ≠ .brokeDown).reverse.findSome?
        (fun note => note.1.sequence) =
      q.sequence.or ((notes.filter fun note => note.2 ≠ .brokeDown).reverse.findSome?
        fun note => note.1.sequence) := by
  rw [List.filter_append, List.reverse_append]
  cases hq : q.sequence with
  | none => simp [hv, hq]
  | some offset => simp [hv, hq]

theorem succeeded (h : t.Counts notes) (q : QueuedCommand) (isReplay : Bool) :
    (t.count q isReplay true).Counts (notes ++ [(q, .succeeded)]) := by
  refine ⟨?_, ?_, ?_⟩
  · rw [List.filter_append, List.length_append, ← h.total]
    cases isReplay with
    | true =>
        simp [count]
        omega
    | false =>
        simp [count]
        omega
  · rw [List.filter_append, List.length_append, ← h.failed]
    cases isReplay <;> simp [count, Verdict.isRefusal]
  · rw [findSome?_more (by simp), ← h.lastOffset]
    cases isReplay <;> rfl

theorem refused (h : t.Counts notes) (q : QueuedCommand) (isReplay : Bool) (reason : String) :
    (t.count q isReplay false).Counts (notes ++ [(q, .failed reason)]) := by
  refine ⟨?_, ?_, ?_⟩
  · rw [List.filter_append, List.length_append, ← h.total]
    simp [count]
    omega
  · rw [List.filter_append, List.length_append, ← h.failed]
    simp [count, Verdict.isRefusal]
  · rw [findSome?_more (by simp), ← h.lastOffset]
    rfl

end Tally.Counts

namespace Runner

variable {ε : Type} [Executor ε]

/-- The tally of a runner counts the notes of its executor; there is none of a breakdown unless the
runner has failed; and a runner that has ended well has ended with its tally. -/
structure Counted (r : Runner SharedLog) (notes : List (QueuedCommand × Verdict)) : Prop where
  counts : r.tally.Counts notes
  intact : (∀ err, r.phase ≠ .finished (.error err)) → ∀ note ∈ notes, note.2 ≠ .brokeDown
  final : ∀ t, r.phase = .finished (.ok t) → t = r.tally

/-- A step of a runner keeps its tally. -/
theorem step_counted (now : Nat) (me : TaskId) {s : State SharedLog (Recorder ε)}
    (h : s.runner.Counted s.executor.notes) :
    (step now me s).runner.Counted (step now me s).executor.notes := by
  cases hq : handedBy now s.runner with
  | none =>
      have hidle := step_idle me hq
      rw [hidle.executor]
      refine ⟨?_, fun hend => h.intact fun err he => hend err (hidle.ended _ he), fun t ht => ?_⟩
      · rw [hidle.tally]
        exact h.counts
      · rw [hidle.tally]
        rcases hidle.ends _ ht with heq | hbefore
        · cases heq
          rfl
        · exact h.final t hbefore
  | some q =>
      have hrunning : ∀ err, s.runner.phase ≠ .finished err := by
        intro err he
        rw [handedBy, he] at hq
        cases hq
      have hintact := h.intact fun err => hrunning (.error err)
      obtain ⟨later, isReplay, hstep⟩ := step_hands me hq
      rw [hstep]
      unfold apply
      rcases hx : Executor.execute s.executor q with ⟨verdict, executor⟩
      have hnotes : executor.notes = s.executor.notes ++ [(q, verdict)] := by
        cases hx
        rfl
      dsimp only
      rw [hnotes]
      have hmore : verdict ≠ .brokeDown →
          ∀ note ∈ s.executor.notes ++ [(q, verdict)], note.2 ≠ .brokeDown := by
        intro hv note hnote
        rcases List.mem_append.1 hnote with hnote | hnote
        · exact hintact note hnote
        · rw [List.mem_singleton] at hnote
          rw [hnote]
          exact hv
      cases verdict with
      | succeeded => exact ⟨h.counts.succeeded q isReplay, fun _ => hmore (by simp), by simp⟩
      | failed reason =>
          exact ⟨h.counts.refused q isReplay reason, fun _ => hmore (by simp), by simp⟩
      | brokeDown =>
          exact ⟨h.counts.brokeDown q, fun hend => absurd rfl (hend _), by simp⟩

/-- A runner that has not failed has counted all that it has handed over. -/
theorem Counted.total {r : Runner SharedLog} {notes : List (QueuedCommand × Verdict)}
    (h : r.Counted notes) (hr : ∀ err, r.phase ≠ .finished (.error err)) :
    r.tally.replayed + r.tally.executed + r.tally.failed = notes.length := by
  rw [h.counts.total, List.filter_eq_self.2]
  intro note hnote
  simpa using h.intact hr note hnote

end Runner

end Recording

end ReplicatedLog
