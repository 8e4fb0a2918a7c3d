import ReplicatedLog.Proofs.Runner.Turns

/-!
# Runners at rest

Between its turns a runner has not begun yet, or waits in a poll.

* `Runner.Idles` says so, how many commands have been handed over, and until when a
  replay that is in progress is over;
* `Idles.turn`: a runner that has reason to go on does so until it waits in a poll, and
  `Idles.caught`: in time it has handed over everything;
* `Idles.withLog`: it has reason to go on when commands are appended;
* `Idles.asked`: when it has handed over everything, a request to stop ends it at once;
* `Idles.stirred`: an interruption takes it back to the beginning of its replay or poll.
-/

namespace ReplicatedLog
namespace Runner

open Channel

section Idling

/-- A runner has not begun yet, or waits in a poll.  It has handed over the first commands, and a
replay that it is in or before is over by `limit`, if nothing more is appended. -/
inductive Idles (timing : Timing) (log : Log) (p : Partition) (qs : List QueuedCommand)
    (me : TaskId) (now limit h : Nat) (s : State SharedLog Workbench) : Prop
  | begins {isReplay : Bool} {k : Nat} (running : Running timing log p qs k h [] s)
      (phase : s.runner.phase = again isReplay) (handed : h = if isReplay then 0 else k)
      (soon : isReplay = true → now + patience timing true ≤ limit)
  | waits {isReplay : Bool} {k deadline : Nat} {seen : Reader.Seen}
      (parked : Parked timing log p qs me isReplay k h deadline seen s)
      (unread : (k = qs.length ∧ seen.appends = log.appends) ∨
        (k < qs.length ∧ seen.appends < log.appends))
      (soon : isReplay = true →
        deadline ≤ limit ∧ (k < qs.length → now + patience timing true ≤ limit))

variable {timing : Timing} {log log' : Log} {p : Partition} {qs : List QueuedCommand}
  {me : TaskId} {now now' limit limit' k h deadline : Nat} {s : State SharedLog Workbench}
  {isReplay : Bool} {seen : Reader.Seen}

theorem Idles.running (h : Idles timing log p qs me now limit k s) :
    ∃ n line, Running timing log p qs n k line s := by
  cases h with
  | begins running => exact ⟨_, _, running⟩
  | waits parked => exact ⟨_, _, parked.running⟩

/-- A runner that idles has not ended. -/
theorem Idles.result? (hs : Idles timing log p qs me now limit h s) : s.runner.result? = none := by
  unfold Runner.result?
  cases hs with
  | @begins isReplay k running phase =>
      rw [phase]
      cases isReplay <;> rfl
  | @waits isReplay k deadline seen parked =>
      rw [parked.phase]
      cases isReplay <;> rfl

theorem Idles.mono (hs : Idles timing log p qs me now limit h s) (hlimit : limit ≤ limit') :
    Idles timing log p qs me now limit' h s := by
  cases hs with
  | begins running phase handed soon =>
      exact .begins running phase handed fun hr => Nat.le_trans (soon hr) hlimit
  | waits parked unread soon =>
      exact .waits parked unread fun hr =>
        ⟨Nat.le_trans (soon hr).1 hlimit, fun hk => Nat.le_trans ((soon hr).2 hk) hlimit⟩

/-- A poll that waits for its time with nothing unread. -/
theorem Parked.rests (hs : Parked timing log p qs me isReplay qs.length h deadline seen s)
    (hseen : seen.appends = log.appends) (htime : now < deadline)
    (limit : Nat) (hsoon : isReplay = true → deadline ≤ limit) :
    Idles timing log p qs me now limit h s ∧ ready now me s = false := by
  refine ⟨.waits hs (Or.inl ⟨rfl, hseen⟩) fun hr =>
    ⟨hsoon hr, fun hk => absurd hk (Nat.lt_irrefl _)⟩, ?_⟩
  rw [Bool.eq_false_iff, ne_eq, hs.ready_iff]
  omega

/-- A runner that has no reason to go on waits in a poll with nothing unread. -/
theorem Idles.parked (hs : Idles timing log p qs me now limit h s)
    (hrests : ready now me s = false) :
    ∃ isReplay deadline seen, Parked timing log p qs me isReplay qs.length h deadline seen s ∧
      seen.appends = log.appends ∧ now < deadline ∧ (isReplay = true → deadline ≤ limit) := by
  cases hs with
  | begins running phase =>
      rw [ready_again phase] at hrests
      cases hrests
  | waits parked unread soon =>
      rw [Bool.eq_false_iff, ne_eq, parked.ready_iff] at hrests
      rcases unread with ⟨rfl, hseen⟩ | ⟨-, hseen⟩
      · exact ⟨_, _, _, parked, hseen, by omega, fun hr => (soon hr).1⟩
      · omega

/-- A runner that has no reason to go on waits for the clock. -/
theorem Idles.due (hs : Idles timing log p qs me now limit h s)
    (hrests : ready now me s = false) : ∃ time, Runner.due s.runner = some time ∧ now < time := by
  obtain ⟨isReplay, deadline, seen, hparked, -, htime, -⟩ := hs.parked hrests
  refine ⟨deadline, ?_, htime⟩
  unfold Runner.due
  rw [hparked.phase]
  cases isReplay <;> rfl

/-- A runner that has no reason to go on is not changed by the clock. -/
theorem Idles.later (hs : Idles timing log p qs me now limit h s)
    (hrests : ready now me s = false) (now' : Nat) :
    Idles timing log p qs me now' limit h s := by
  obtain ⟨isReplay, deadline, seen, hparked, hseen, -, hsoon⟩ := hs.parked hrests
  exact .waits hparked (Or.inl ⟨rfl, hseen⟩) fun hr =>
    ⟨hsoon hr, fun hk => absurd hk (Nat.lt_irrefl _)⟩

/-- A runner that has no reason to go on when its replay has to be over has handed over
everything. -/
theorem Idles.caught (hs : Idles timing log p qs me now limit h s)
    (hrests : ready now me s = false) (hlimit : limit ≤ now) : h = qs.length := by
  obtain ⟨isReplay, deadline, seen, hparked, -, htime, hsoon⟩ := hs.parked hrests
  have hhanded := hparked.handed
  cases isReplay with
  | true =>
      have := hsoon rfl
      omega
  | false => exact hhanded

section Turns

variable (hqs : Smooth qs) (hc : log.Carries p qs)
  (hpatient : ∀ isReplay, 0 < patience timing isReplay)

include hqs hc hpatient

/-- Behind its replay a runner goes on until it waits in a poll with nothing unread. -/
theorem tail_rests (now limit : Nat) (me : TaskId) (hs : Running timing log p qs k k [] s)
    (hp : s.runner.phase = again false) :
    ∃ c s', c ≤ 7 * (qs.length - k) + 4 ∧ Goes now me c s s' ∧
      Idles timing log p qs me now limit qs.length s' ∧ ready now me s' = false := by
  obtain ⟨c, seen, s', hcount, hgoes, hseen, hparked⟩ := tail_goes hqs hs hc hp (hpatient false)
  exact ⟨c, s', hcount, hgoes,
    hparked.rests hseen (Nat.lt_add_of_pos_right (hpatient false)) limit nofun⟩

/-- A runner with commands in hand goes on until it waits in a poll with nothing unread. -/
theorem applying_rests (now limit : Nat) (me : TaskId) {todo : List QueuedCommand}
    (hs : Running timing log p qs k h [] s) (hp : s.runner.phase = .applying todo isReplay none)
    (htodo : qs.take h ++ todo = qs.take k) :
    ∃ c s', c ≤ 9 * qs.length + 5 ∧ Goes now me c s s' ∧
      Idles timing log p qs me now limit qs.length s' ∧ ready now me s' = false := by
  obtain ⟨s₁, happly, hs₁, hp₁⟩ := goes_applying now me hqs todo hs hp htodo
  obtain ⟨c, s₂, hcount, hgoes, hrests⟩ := tail_rests hqs hc hpatient now limit me hs₁ hp₁
  have hlength := congrArg List.length htodo
  rw [List.length_append, List.length_take, List.length_take, Nat.min_eq_left hs.read] at hlength
  have hread := hs.read
  exact ⟨2 * todo.length + 1 + c, s₂, by omega, happly.trans hgoes, hrests⟩

omit hqs in
/-- A replay goes on until it waits with nothing unread. -/
theorem replay_rests (hs : Running timing log p qs k 0 [me] s)
    (hp : s.runner.phase = calling true (.polling (.replay true) (patience timing true)
      (restored qs k true) (.started (patience timing true))))
    (hlimit : now + patience timing true ≤ limit) :
    ∃ c s', c ≤ qs.length + 1 ∧ Goes now me c s s' ∧
      Idles timing log p qs me now limit 0 s' ∧ ready now me s' = false := by
  obtain ⟨c, seen, s', hcount, hgoes, hseen, hparked⟩ := replay_goes hs hc hp (hpatient true)
  exact ⟨c, s', by omega, hgoes,
    hparked.rests hseen (Nat.lt_add_of_pos_right (hpatient true)) limit fun _ => hlimit⟩

/-- A runner that has reason to go on does so until it waits in a poll with nothing unread. -/
theorem Idles.turn (hs : Idles timing log p qs me now limit h s)
    (hready : ready now me s = true) :
    ∃ c h' s', c ≤ 9 * qs.length + 20 ∧ h ≤ h' ∧ Goes now me c s s' ∧
      Idles timing log p qs me now limit h' s' ∧ ready now me s' = false := by
  have hbound : h ≤ qs.length := by
    obtain ⟨n, line, hrunning⟩ := hs.running
    exact hrunning.bound
  cases hs with
  | @begins isReplay k running phase handed soon =>
      cases isReplay with
      | true =>
          obtain rfl : h = 0 := handed
          obtain ⟨k', s₁, rfl, hpoll, hs₁, hp₁⟩ := goes_to_poll now me running phase
          obtain ⟨c, s₂, hcount, hgoes, hrests⟩ :=
            replay_rests hc hpatient hs₁ hp₁ (soon rfl)
          exact ⟨3 + c, 0, s₂, by omega, Nat.le_refl 0, hpoll.trans hgoes, hrests⟩
      | false =>
          obtain rfl : k = h := handed.symm
          obtain ⟨c, s₁, hcount, hgoes, hrests⟩ :=
            tail_rests hqs hc hpatient now limit me running phase
          exact ⟨c, qs.length, s₁, by omega, hbound, hgoes, hrests⟩
  | @waits isReplay k deadline seen parked unread soon =>
      have hready' := parked.ready_iff.1 hready
      rcases unread with ⟨rfl, hseen⟩ | ⟨hlt, -⟩
      · have hdue := goes_due parked.running hc parked.phase hready (by
          change deadline ≤ now
          omega)
        have htodo : qs.take h ++ restored qs qs.length isReplay = qs.take qs.length := by
          rw [parked.handed]
          cases isReplay <;> simp [restored]
        obtain ⟨c, s₂, hcount, hgoes, hrests⟩ := applying_rests hqs hc hpatient now limit me
          ((parked.running.withLine []).to _) rfl htodo
        exact ⟨1 + c, qs.length, s₂, by omega, hbound, hdue.trans hgoes, hrests⟩
      · obtain ⟨k', s₁, hk', htake, hs₁⟩ := goes_unread parked.running hc hlt parked.phase hready
        cases isReplay with
        | true =>
            obtain rfl : h = 0 := parked.handed
            obtain ⟨c, s₂, hcount, hgoes, hrests⟩ :=
              replay_rests hc hpatient hs₁.1 hs₁.2 ((soon rfl).2 hlt)
            exact ⟨1 + c, 0, s₂, by omega, Nat.le_refl 0, htake.trans hgoes, hrests⟩
        | false =>
            obtain rfl : k = h := parked.handed.symm
            obtain ⟨hs₁, todo, hp₁, htodo⟩ := hs₁
            obtain ⟨c, s₂, hcount, hgoes, hrests⟩ :=
              applying_rests hqs hc hpatient now limit me hs₁ hp₁ htodo
            exact ⟨1 + c, qs.length, s₂, by omega, hbound, htake.trans hgoes, hrests⟩

end Turns

end Idling

section Appending

/-- The runner on another log. -/
def State.withLog {ε : Type} (s : State SharedLog ε) (log : Log) : State SharedLog ε :=
  { s with endpoint := { s.endpoint with client := { s.endpoint.client with log } } }

variable {timing : Timing} {log log' : Log} {p : Partition} {qs : List QueuedCommand}
  {me : TaskId} {now limit limit' k h deadline : Nat} {s : State SharedLog Workbench}
  {isReplay : Bool} {seen : Reader.Seen} {line : List TaskId}

theorem Running.withLog (hs : Running timing log p qs k h line s) (log' : Log)
    (more : List QueuedCommand) :
    Running timing log' p (qs ++ more) k h line (s.withLog log') := by
  have hread := hs.read
  have hbound := hs.bound
  have hhandled := hs.handled
  refine ⟨⟨rfl, hs.place.schema, hs.place.reader, hs.place.writer, hs.place.partition,
    hs.place.isOpen, hs.place.line⟩, ⟨hhandled.plain, hhandled.prompt, ?_, hhandled.failed,
    hhandled.total, hhandled.lastOffset⟩, hs.timing, hs.goesOn, ?_, ?_⟩
  · rw [List.take_append_of_le_length hbound]
    exact hhandled.engine
  · rw [List.length_append]
    omega
  · rw [List.length_append]
    omega

theorem Parked.withLog (hs : Parked timing log p qs me isReplay k h deadline seen s) (log' : Log)
    (more : List QueuedCommand) :
    Parked timing log' p (qs ++ more) me isReplay k h deadline seen (s.withLog log') := by
  refine ⟨hs.running.withLog log' more, ?_, hs.calls, hs.handed⟩
  have hsame : restored (qs ++ more) k isReplay = restored qs k isReplay := by
    cases isReplay with
    | true => exact List.take_append_of_le_length hs.running.read
    | false => rfl
  rw [hsame]
  exact hs.phase

/-- When commands are appended, a runner idles with more to read. -/
theorem Idles.withLog (hs : Idles timing log p qs me now limit h s) {more : List QueuedCommand}
    (happends : log'.appends = log.appends + more.length) (hlimit : limit ≤ limit')
    (hsoon : more ≠ [] → now + patience timing true ≤ limit') :
    Idles timing log' p (qs ++ more) me now limit' h (s.withLog log') := by
  cases hs.mono hlimit with
  | begins running phase handed soon =>
      exact .begins (running.withLog log' more) phase handed soon
  | waits parked unread soon =>
      have hlength : (qs ++ more).length = qs.length + more.length := List.length_append
      have hread := parked.running.read
      refine .waits (parked.withLog log' more) (by omega) fun hr => ⟨(soon hr).1, fun hk => ?_⟩
      cases more with
      | nil =>
          rw [List.append_nil] at hk
          exact (soon hr).2 hk
      | cons q more => exact hsoon nofun

end Appending

section Ending

variable {timing : Timing} {log : Log} {p : Partition} {qs : List QueuedCommand}
  {me : TaskId} {now limit h deadline : Nat} {s : State SharedLog Workbench}
  {isReplay : Bool} {seen : Reader.Seen}

/-- A runner that waits in a poll with nothing unread gives it up when the channel has been
interrupted, and looks for commands again. -/
theorem Parked.step_woken (hs : Parked timing log p qs me isReplay qs.length h deadline seen s)
    (hc : log.Carries p qs) (now time : Nat) {r : Runner SharedLog}
    (hr : r.phase = s.runner.phase) :
    ∃ e, ready now me ⟨s.endpoint.interrupt time, s.executor, r⟩ = true ∧
      step now me ⟨s.endpoint.interrupt time, s.executor, r⟩ =
        ⟨e, s.executor, { r with phase := again isReplay }⟩ ∧
      Stands e log p qs.length [] := by
  have hfree := hs.running.place.reader
  have hline := hs.running.place.line
  have hp : r.phase = calling isReplay (.polling (purpose isReplay) (patience timing isReplay)
      (restored qs qs.length isReplay) (.parked deadline seen)) := hr.trans hs.phase
  have hpoll : (s.endpoint.interrupt time).client.reader.stepPoll
      (s.endpoint.interrupt time).client.schema now (s.endpoint.interrupt time).client.log
      (.parked deadline seen) =
        (.done (.error .wakeup), { s.endpoint.client.reader.wake with isWoken := false }) := by
    change Reader.attempt s.endpoint.client.schema now s.endpoint.client.log _ deadline = _
    rw [hs.running.place.schema, hs.running.place.log]
    exact Reader.attempt_woken hfree.place hfree.isOpen rfl hc
  have hcall : Call.step now me (s.endpoint.interrupt time) (.polling (purpose isReplay)
      (patience timing isReplay) (restored qs qs.length isReplay)
        (Reader.Poll.parked deadline seen)) = _ :=
    Call.step_polling hpoll
  have hstep := step_done (s := ⟨s.endpoint.interrupt time, s.executor, r⟩) hp hcall
  refine ⟨_, ?_, hstep, ?_⟩
  · rw [ready_calling hp]
    have hcalls : seen ≠ Reader.seenNow (s.endpoint.interrupt time).client.log
        s.endpoint.client.reader.wake := by
      intro hseen
      have := congrArg Reader.Seen.calls hseen
      rw [hs.calls] at this
      exact absurd this (Nat.ne_of_lt (Nat.lt_succ_self _))
    exact Bool.or_eq_true_iff.2 (Or.inl (decide_eq_true hcalls))
  · refine ⟨hs.running.place.log, hs.running.place.schema, ⟨hfree.place, hfree.isOpen, rfl⟩,
      hs.running.place.writer, hs.running.place.partition, hs.running.place.isOpen, ?_⟩
    change s.endpoint.channel.line.erase me = []
    rw [hline]
    simp

/-- An interruption takes a runner that waits in a poll back to the beginning of its replay or
poll. -/
theorem Idles.stirred (hs : Idles timing log p qs me now limit h s)
    (hrests : ready now me s = false) (hc : log.Carries p qs) {now' limit' : Nat}
    (hlimit : now' + patience timing true ≤ limit') (time : Nat) :
    ∃ s', Goes now' me 1 { s with endpoint := s.endpoint.interrupt time } s' ∧
      Idles timing log p qs me now' limit' h s' := by
  obtain ⟨isReplay, deadline, seen, hparked, -⟩ := hs.parked hrests
  obtain ⟨e, hready, hstep, hstands⟩ := hparked.step_woken hc now' time rfl
  have hrunning : Running timing log p qs qs.length h []
      ⟨e, s.executor, { s.runner with phase := again isReplay }⟩ :=
    ⟨hstands, hparked.running.handled, hparked.running.timing, hparked.running.goesOn,
      Nat.le_refl _, hparked.running.bound⟩
  exact ⟨_, .one hready hstep (again_result? _ _),
    .begins hrunning rfl hparked.handed fun _ => hlimit⟩

/-- A runner that has been asked to stop. -/
def State.asked {ε : Type} (s : State SharedLog ε) (time : Nat) : State SharedLog ε :=
  { s with endpoint := s.endpoint.interrupt time, runner := s.runner.requestStop }

/-- Nobody uses the reading handle of an open channel on a log. -/
structure Vacant (e : Endpoint SharedLog) (log : Log) : Prop where
  log : e.client.log = log
  schema : e.client.schema = .json
  isOpen : e.channel.isShutDown = false
  line : e.channel.line = []

theorem Stands.vacant {e : Endpoint SharedLog} {k : Nat} (h : Stands e log p k []) :
    Vacant e log :=
  ⟨h.log, h.schema, h.isOpen, h.line⟩

/-- What a runner that has ended well leaves behind. -/
structure Ended (log : Log) (t : Tally) (s : State SharedLog Workbench) : Prop where
  result : s.runner.result? = some (.ok t)
  vacant : Vacant s.endpoint log

/-- A runner that was asked to stop ends when it would look for commands again. -/
theorem ended_again (he : Vacant s.endpoint log) (hr : s.runner.stopRequested = true)
    (hp : s.runner.phase = again isReplay) (now : Nat) (me : TaskId) :
    Ended log s.runner.tally (step now me s) := by
  rw [step_again_of_stop hp hr]
  exact ⟨rfl, he⟩

/-- A runner that has handed over everything ends at once when it is asked to stop. -/
theorem Idles.asked (hs : Idles timing log p qs me now limit qs.length s)
    (hc : log.Carries p qs) (time : Nat) :
    ∃ c s', c ≤ 1 ∧ Goes now me c (s.asked time) s' ∧ ready now me s' = true ∧
      Ended log s.runner.tally (step now me s') := by
  cases hs with
  | begins running phase =>
      have hvacant : Vacant (s.asked time).endpoint log :=
        ⟨running.place.log, running.place.schema, running.place.isOpen, running.place.line⟩
      exact ⟨0, _, Nat.zero_le 1, .here _, ready_again phase,
        ended_again (s := s.asked time) hvacant rfl phase now me⟩
  | @waits isReplay k deadline seen parked unread =>
      obtain rfl : k = qs.length := by
        have hhanded := parked.handed
        have hread := parked.running.read
        cases isReplay with
        | true =>
            change qs.length = 0 at hhanded
            omega
        | false => exact hhanded.symm
      obtain ⟨e, hready, hstep, hstands⟩ :=
        parked.step_woken hc now time (r := s.runner.requestStop) rfl
      exact ⟨1, _, Nat.le_refl 1, .one hready hstep (again_result? _ _), ready_again rfl,
        ended_again (s := ⟨e, s.executor, { s.runner.requestStop with phase := again isReplay }⟩)
          hstands.vacant rfl rfl now me⟩

end Ending

end Runner
end ReplicatedLog
