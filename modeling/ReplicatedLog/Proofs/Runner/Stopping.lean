import ReplicatedLog.Proofs.Channel.Waking
import ReplicatedLog.Proofs.Runner.Scene

/-!
# A runner that is asked to stop

A runner is the only one to poll its channel and its executor does not block.  When
it is asked to stop, in whatever phase it is and whatever else happens, it ends
without waiting for the clock.

* `Phase.Heeds`: what a runner in a phase relies on so that it heeds a request to
  stop: a pending wakeup while it polls, a waiting time that has been called off;
* `Scene.Lined`: the runner and the requests in progress stand in line as they have to;
* `Scene.Heeding` is all that is kept along the moves;
* `Heeding.finished`: when nobody can go on, a runner that was asked to stop has ended;
* `Scene.HandsOut`: what a runner still hands over after a request to stop.
-/

namespace ReplicatedLog

open Channel

namespace Runner

section Phases

/-- What a runner in a replay or a poll relies on so that a request to stop gets through to it. -/
structure HeedsIn (asked : Bool) (reader : Reader) (isReplay : Bool)
    (call : Call SharedLog) : Prop where
  serves : ∃ purpose timeout, call.Serves (.use (.poll purpose timeout)) ∧
    (isReplay = true → ∃ withOffsets, purpose = .replay withOffsets)
  called : call.IsCalled reader
  woken : asked = true → reader.isWoken = true

/-- What a runner relies on so that a request to stop gets through to it; it has been `asked` to
stop or not, and its waiting times have been called off so many times. -/
def Phase.Heeds (asked : Bool) (calledOff : Nat) (reader : Reader) (limit : Nat) :
    Phase SharedLog → Prop
  | .replaying call => HeedsIn asked reader true call
  | .polling call => HeedsIn asked reader false call
  | .applying _ _ start => ∀ n, start = some n → n ≤ limit
  | .backingOff _ stops _ => stops ≤ calledOff ∧ (asked = true → stops < calledOff)
  | .restoring | .tailing | .finished _ => True

/-- The commands that a runner has been brought and has yet to hand over. -/
def Phase.inHand : Phase SharedLog → List QueuedCommand
  | .applying todo _ _ => todo
  | _ => []

/-- The request that a runner in a phase has in progress on its channel. -/
def Phase.ticket? (timing : Timing) : Phase SharedLog → Option Ticket
  | .replaying call => some ⟨.replayWithOffsets timing.replayPoll.ticks, call⟩
  | .polling call => some ⟨.pollCommands timing.poll.ticks, call⟩
  | _ => none

/-- A poll is in progress. -/
def Phase.isPolling : Phase SharedLog → Bool
  | .polling _ => true
  | _ => false

/-- No poll is in progress, and there is nothing to hand over. -/
structure Phase.IsIdle (phase : Phase SharedLog) : Prop where
  apart : phase.isPolling = false
  empty : phase.inHand = []

variable {r : Runner SharedLog} {reader reader' : Reader} {limit : Nat} {phase : Phase SharedLog}

/-- Others that spare the wakeup leave a runner that heeds a request to stop. -/
theorem Phase.Heeds.spares {asked : Bool} {stops : Nat} (h : phase.Heeds asked stops reader limit)
    (hr : reader.Spares reader') : phase.Heeds asked stops reader' limit := by
  cases phase with
  | replaying call =>
      exact ⟨h.serves, h.called.spares hr, fun hstop => hr.pending (h.woken hstop)⟩
  | polling call =>
      exact ⟨h.serves, h.called.spares hr, fun hstop => hr.pending (h.woken hstop)⟩
  | applying todo isReplay start => exact h
  | backingOff deadline stops isReplay => exact h
  | restoring => trivial
  | tailing => trivial
  | finished result => trivial

/-- A request to stop gets through. -/
theorem Phase.Heeds.requestStop {asked : Bool} {stops : Nat}
    (h : phase.Heeds asked stops reader limit) :
    phase.Heeds true (stops + 1) reader.wake limit := by
  cases phase with
  | replaying call => exact ⟨h.serves, h.called.spares reader.wake_spares, fun _ => rfl⟩
  | polling call => exact ⟨h.serves, h.called.spares reader.wake_spares, fun _ => rfl⟩
  | applying todo isReplay start => exact h
  | backingOff deadline noted isReplay =>
      exact ⟨Nat.le_succ_of_le h.1, fun _ => Nat.lt_succ_of_le h.1⟩
  | restoring => trivial
  | tailing => trivial
  | finished result => trivial

/-- After a replay or a poll a runner heeds a request to stop, and polls no more at once. -/
theorem afterCall_heeds (now : Nat) (isReplay : Bool) (result : Channel.Result) :
    (afterCall now r isReplay result).Heeds r.stopRequested r.stops reader limit := by
  rcases afterCall_cases now r isReplay result with ⟨reply, -, todo, hphase⟩ | ⟨err, -, hfailure⟩
  · rw [hphase]
    exact nofun
  · rw [hfailure]
    rcases afterFailure_cases now r isReplay err with ⟨hphase, -⟩ | ⟨hphase, -⟩ |
      ⟨hphase, -, -, hstop⟩
    · rw [hphase]
      cases isReplay <;> trivial
    · rw [hphase]
      trivial
    · rw [hphase]
      exact ⟨Nat.le_refl _, fun h => absurd (hstop.symm.trans h) nofun⟩

theorem again_isIdle (isReplay : Bool) : (again isReplay : Phase SharedLog).IsIdle := by
  cases isReplay <;> exact ⟨rfl, rfl⟩

theorem afterFailure_isIdle (now : Nat) (r : Runner SharedLog) (isReplay : Bool)
    (e : Channel.Error) : (afterFailure now r isReplay e).IsIdle := by
  rcases afterFailure_cases now r isReplay e with ⟨hphase, -⟩ | ⟨hphase, -⟩ | ⟨hphase, -⟩
  · rw [hphase]
    exact again_isIdle isReplay
  · rw [hphase]
    exact ⟨rfl, rfl⟩
  · rw [hphase]
    exact ⟨rfl, rfl⟩

theorem Phase.eq_polling (h : phase.isPolling = true) : ∃ call, phase = .polling call := by
  unfold isPolling at h
  split at h
  · exact ⟨_, rfl⟩
  · cases h

theorem Phase.inHand_of_isPolling (h : phase.isPolling = true) : phase.inHand = [] := by
  obtain ⟨call, rfl⟩ := eq_polling h
  rfl

/-- The request in progress is one for the replay or the poll in progress. -/
theorem Phase.ticket?_eq (phase : Phase SharedLog) (timing : Timing) :
    phase.ticket? timing = phase.call?.map fun c =>
      ⟨if c.1 then .replayWithOffsets timing.replayPoll.ticks
        else .pollCommands timing.poll.ticks, c.2⟩ := by
  cases phase <;> rfl

end Phases

section Steps

variable {ε : Type} {now limit : Nat} {me : TaskId} {s : State SharedLog ε}

/-- The runner heeds a request to stop. -/
def State.Heeds (s : State SharedLog ε) (limit : Nat) : Prop :=
  s.runner.phase.Heeds s.runner.stopRequested s.runner.stops s.endpoint.client.reader limit

/-- A step of a replay or a poll leaves a runner that heeds a request to stop. -/
theorem stepCall_heeds {isReplay : Bool} {call : Call SharedLog}
    (h : HeedsIn s.runner.stopRequested s.endpoint.client.reader isReplay call) :
    (stepCall now me s isReplay call).Heeds limit := by
  obtain ⟨⟨purpose, timeout, hs, hreplay⟩, hcalled, hwoken⟩ := h
  unfold stepCall
  rcases hstep : call.step now me s.endpoint with ⟨progress, e⟩
  cases progress with
  | done result => exact afterCall_heeds now isReplay result
  | waiting call' =>
      have hprogress : (call.step now me s.endpoint).1 = .waiting call' := by rw [hstep]
      obtain ⟨hsame, hcalled'⟩ := Call.step_isCalled hs hprogress
      rw [hstep] at hsame hcalled'
      have hheeds : HeedsIn s.runner.stopRequested e.client.reader isReplay call' :=
        ⟨⟨purpose, timeout, Call.step_serves hs hprogress, hreplay⟩, hcalled',
          fun hstop => hsame.trans (hwoken hstop)⟩
      cases isReplay with
      | true => exact hheeds
      | false => exact hheeds

variable [Executor ε]

/-- A step of a runner leaves a runner that heeds a request to stop. -/
theorem step_heeds (hdelay : ∀ q, Executor.delay s.executor q = 0) (hnow : now ≤ limit)
    (h : s.Heeds limit) : (step now me s).Heeds limit := by
  have hmoves := step_moves now me s
  generalize step now me s = s' at hmoves ⊢
  unfold State.Heeds at h
  cases hmoves with
  | ends isReplay hphase hstop => trivial
  | begins isReplay hphase hstop =>
      have hgoes : s.runner.stopRequested = true → s.endpoint.client.reader.isWoken = true :=
        fun hasked => absurd (hstop.symm.trans hasked) nofun
      cases isReplay with
      | true => exact ⟨⟨_, _, rfl, fun _ => ⟨_, rfl⟩⟩, trivial, hgoes⟩
      | false => exact ⟨⟨_, _, rfl, nofun⟩, trivial, hgoes⟩
  | calls isReplay call hcall =>
      rcases Phase.call?_some hcall with ⟨rfl, hphase⟩ | ⟨rfl, hphase⟩
      · rw [hphase] at h
        exact stepCall_heeds h
      · rw [hphase] at h
        exact stepCall_heeds h
  | runsOut isReplay start hphase => trivial
  | takesUp q later isReplay hphase =>
      intro n hn
      rw [hdelay q] at hn
      cases hn
      exact hnow
  | hands q later isReplay start hphase hdue =>
      obtain ⟨phase, tally, hrunner, hafter⟩ := apply_runner s q later isReplay
      rw [State.Heeds, hrunner]
      rcases hafter with rfl | ⟨err, rfl⟩
      · exact nofun
      · trivial
  | recovers deadline stops isReplay hphase hdue => cases isReplay <;> trivial
  | rests hready hcall => exact h

/-- A step of a runner is one of its request in progress, or it leaves the channel and has at most
entered a request. -/
theorem step_ticket? (now : Nat) (me : TaskId) (s : State SharedLog ε) :
    (∃ k, s.runner.phase.ticket? s.runner.timing = some k ∧
      (step now me s).endpoint = (k.call.step now me s.endpoint).2 ∧
      (step now me s).runner.phase.ticket? s.runner.timing =
        k.after (k.call.step now me s.endpoint).1) ∨
    (s.runner.phase.ticket? s.runner.timing = none ∧ (step now me s).endpoint = s.endpoint ∧
      ∀ k, (step now me s).runner.phase.ticket? s.runner.timing = some k →
        ∃ r, k.call = .entered r) := by
  simp only [Phase.ticket?_eq]
  cases hcall : s.runner.phase.call? with
  | some c =>
      obtain ⟨isReplay, call⟩ := c
      refine .inl ⟨_, rfl, ?_⟩
      rw [step_of_call hcall, stepCall_call?]
      refine ⟨rfl, ?_⟩
      cases (call.step now me s.endpoint).1 <;> rfl
  | none =>
      obtain ⟨hsame, hbegins⟩ := step_rest now me hcall
      refine .inr ⟨rfl, hsame, fun k hk => ?_⟩
      obtain ⟨⟨isReplay, call⟩, hin, rfl⟩ := Option.map_eq_some_iff.1 hk
      obtain ⟨purpose, timeout, hentered⟩ := hbegins isReplay call hin
      exact ⟨_, hentered⟩

/-- A step of a runner that was asked to stop, has no poll in progress and completes no replay
starts no poll, and leaves of what is in hand what it does not hand over. -/
theorem step_inHand (now : Nat) (me : TaskId) (hstop : s.runner.stopRequested = true)
    (hapart : s.runner.phase.isPolling = false)
    (hreplay : ∀ call reply, s.runner.phase = .replaying call →
      (call.step now me s.endpoint).1 ≠ .done (.ok reply)) :
    (step now me s).runner.phase.isPolling = false ∧
      (handedBy now s.runner).toList ++ (step now me s).runner.phase.inHand <+:
        s.runner.phase.inHand := by
  have hidle : ∀ {phase phase' : Phase SharedLog}, phase'.IsIdle →
      phase'.isPolling = false ∧ [] ++ phase'.inHand <+: phase.inHand := by
    rintro phase phase' ⟨hapart, hempty⟩
    rw [hempty]
    exact ⟨hapart, List.nil_prefix⟩
  have hmoves := step_moves now me s
  generalize step now me s = s' at hmoves ⊢
  cases hmoves with
  | ends isReplay hphase hasked =>
      rw [handedBy_again hphase]
      exact hidle ⟨rfl, rfl⟩
  | begins isReplay hphase hgoes => exact absurd (hgoes.symm.trans hstop) nofun
  | calls isReplay call hcall =>
      rcases Phase.call?_some hcall with ⟨rfl, hphase⟩ | ⟨rfl, hphase⟩
      · have hnone := hreplay call
        rw [handedBy, hphase]
        refine hidle ?_
        dsimp only [stepCall]
        cases hprogress : (call.step now me s.endpoint).1 with
        | waiting call' => exact ⟨rfl, rfl⟩
        | done result =>
            cases result with
            | ok reply => exact absurd hprogress (hnone reply hphase)
            | error err => exact afterFailure_isIdle now s.runner true err
      · rw [hphase] at hapart
        cases hapart
  | runsOut isReplay start hphase =>
      rw [handedBy, hphase]
      exact hidle ⟨rfl, rfl⟩
  | takesUp q later isReplay hphase =>
      rw [handedBy, hphase]
      exact ⟨rfl, List.prefix_refl _⟩
  | hands q later isReplay start hphase hdue =>
      obtain ⟨phase, tally, hrunner, hafter⟩ := apply_runner s q later isReplay
      rw [handedBy, hphase, hrunner]
      simp only [if_pos hdue, Option.toList_some]
      rcases hafter with rfl | ⟨err, rfl⟩
      · exact ⟨rfl, List.prefix_refl _⟩
      · exact ⟨rfl, List.prefix_append [q] later⟩
  | recovers deadline stops isReplay hphase hdue =>
      rw [handedBy, hphase]
      exact hidle (again_isIdle isReplay)
  | rests hready hcall =>
      rw [handedBy_of_not_ready hready]
      exact ⟨hapart, List.prefix_refl _⟩

theorem step_timing (now : Nat) (me : TaskId) (s : State SharedLog ε) :
    (step now me s).runner.timing = s.runner.timing ∧
      (step now me s).runner.stopRequested = s.runner.stopRequested := by
  obtain ⟨phase, tally, hrunner⟩ := step_runner now me s
  rw [hrunner]
  exact ⟨rfl, rfl⟩

end Steps

end Runner

namespace Traffic

section Joining

/-- The traffic with one more task, or without one. -/
def joined (t : Traffic) (me : TaskId) (k : Option Ticket) : Traffic :=
  { t with tickets := t.put me k }

variable {t : Traffic} {me : TaskId}

theorem put_joined (t : Traffic) (me : TaskId) (k k' : Option Ticket) :
    (t.joined me k).put me k' = t.put me k' := by
  funext id
  simp only [put, joined]
  split <;> rfl

theorem put_joined_of_ne (t : Traffic) {task : TaskId} (h : task ≠ me) (k k' : Option Ticket) :
    (t.joined me k).put task k' = ({ t with tickets := t.put task k' } : Traffic).put me k := by
  funext id
  simp only [put, joined]
  split
  next hid => rw [if_neg (hid ▸ h)]
  next => rfl

/-- The order is one of the endpoint and the requests in progress. -/
theorem Ordered.congr {t' : Traffic} (h : t.Ordered) (hendpoint : t'.endpoint = t.endpoint)
    (htickets : t'.tickets = t.tickets) (hnext : t'.next = t.next) : t'.Ordered := by
  refine ⟨?_, ?_, ?_, ?_⟩
  · rw [hendpoint]
    exact h.nodup
  · rw [hendpoint, htickets]
    exact h.stands
  · rw [hendpoint, htickets]
    exact h.strangers
  · rw [htickets, hnext]
    exact h.fresh

/-- A move goes past a task that takes no part in the traffic. -/
theorem perform_joined (hnone : t.tickets me = none) (hlt : me < t.next) (k : Option Ticket)
    (m : Move) :
    (t.perform m).joined me k = t.joined me k ∨
      (t.perform m).joined me k = (t.joined me k).perform m := by
  have hsame : ∀ id, id ≠ me → (t.joined me k).tickets id = t.tickets id :=
    fun id hid => put_of_ne t k hid
  cases m with
  | enter r =>
      right
      have hput := put_joined_of_ne t (Nat.ne_of_gt hlt) k (some ⟨r, .entered r⟩)
      simp only [perform]
      rw [show (t.joined me k).next = t.next from rfl, hput]
      rfl
  | interrupt now => exact .inr rfl
  | onLog op => exact .inr rfl
  | step task now =>
      by_cases htask : task = me
      · simp only [perform, htask, hnone, true_or]
      · right
        simp only [perform, hsame task htask]
        cases t.tickets task with
        | none => rfl
        | some k' =>
            have hput := put_joined_of_ne t htask k
              (k'.after (k'.call.step now task t.endpoint).1)
            simp only [advance, deed]
            rw [show (t.joined me k).endpoint = t.endpoint from rfl, hput]
            rfl
  | abandon task =>
      by_cases htask : task = me
      · simp only [perform, htask, hnone, true_or]
      · right
        simp only [perform, hsame task htask]
        cases t.tickets task with
        | none => rfl
        | some k' =>
            dsimp only
            rw [put_joined_of_ne t htask k none]
            rfl

end Joining

end Traffic

namespace Scene

variable {ε : Type} {s : Scene ε} {limit : Nat}

section Lines

/-- The traffic with the runner as one of its tasks. -/
def company (s : Scene ε) : Traffic :=
  s.traffic.joined s.task (s.runner.phase.ticket? s.runner.timing)

/-- The runner is a task of its own, and everybody stands in line where they have to. -/
structure Lined (s : Scene ε) : Prop where
  ordered : s.company.Ordered
  apart : s.traffic.tickets s.task = none
  older : s.task < s.traffic.next

theorem lined_start {t : Traffic} (h : t.Ordered) (timing : Timing) (x : ε) :
    (start t timing x).Lined := by
  have hnone : t.tickets t.next = none := h.fresh _ (Nat.le_refl _)
  have htickets : (start t timing x).company.tickets = t.tickets := by
    funext id
    by_cases hid : id = t.next
    · rw [hid, hnone]
      exact Traffic.put_self _ _ _
    · exact Traffic.put_of_ne _ _ hid
  refine ⟨⟨h.nodup, ?_, ?_, ?_⟩, hnone, Nat.lt_succ_self _⟩
  · rw [htickets]
    exact h.stands
  · rw [htickets]
    exact h.strangers
  · rw [htickets]
    exact fun id hid => h.fresh id (Nat.le_of_succ_le hid)

variable [Executor ε]

theorem Lined.others (h : s.Lined) (m : Traffic.Move) (hm : m.IsQuiet) :
    (s.perform (.others m hm)).Lined := by
  obtain ⟨hnone, hlt⟩ : Traffic.OverFor (s.traffic.perform m) s.task :=
    Traffic.OverFor.perform ⟨h.apart, h.older⟩ m
  refine ⟨?_, hnone, hlt⟩
  let k := s.runner.phase.ticket? s.runner.timing
  change ((s.traffic.perform m).joined s.task k).Ordered
  rcases Traffic.perform_joined h.apart h.older k m with hsame | hmoved
  · rw [hsame]
    exact h.ordered
  · rw [hmoved]
    exact h.ordered.perform m

theorem Lined.work (h : s.Lined) (now : Nat) : (s.work now).Lined := by
  refine ⟨?_, h.apart, h.older⟩
  have htiming : (s.work now).runner.timing = s.runner.timing :=
    (Runner.step_timing now s.task s.state).1
  have htickets : (s.work now).company.tickets =
      s.traffic.put s.task ((s.work now).runner.phase.ticket? s.runner.timing) := by
    rw [← htiming]
    rfl
  rcases Runner.step_ticket? now s.task s.state with
    ⟨k, hk, hendpoint, hafter⟩ | ⟨hnone, hendpoint, hentered⟩
  · have hown : s.company.tickets s.task = some k := (Traffic.put_self _ _ _).trans hk
    refine (h.ordered.advance hown now).congr hendpoint ?_ rfl
    rw [htickets, Traffic.tickets_advance, company, Traffic.put_joined]
    exact congrArg (s.traffic.put s.task) hafter
  · have hme : s.task ∉ s.traffic.endpoint.channel.line :=
      h.ordered.strangers s.task ((Traffic.put_self _ _ _).trans hnone)
    have hline : (s.work now).company.endpoint.channel.line = s.traffic.endpoint.channel.line :=
      congrArg (fun e => e.channel.line) hendpoint
    refine ⟨?_, ?_, ?_, ?_⟩
    · rw [hline]
      exact h.ordered.nodup
    · rw [hline, htickets]
      intro id k hk
      rcases Traffic.put_cases hk with ⟨rfl, hnew⟩ | ⟨hid, hold⟩
      · obtain ⟨r, hr⟩ := hentered k hnew
        rw [hr]
        exact hme
      · exact h.ordered.stands id k ((Traffic.put_of_ne _ _ hid).trans hold)
    · rw [hline, htickets]
      intro id hid
      rcases Traffic.put_cases hid with ⟨rfl, -⟩ | ⟨hid, hold⟩
      · exact hme
      · exact h.ordered.strangers id ((Traffic.put_of_ne _ _ hid).trans hold)
    · rw [htickets]
      intro id hid
      have hne : id ≠ s.task := Nat.ne_of_gt (Nat.lt_of_lt_of_le h.older hid)
      exact (Traffic.put_of_ne _ _ hne).trans
        ((Traffic.put_of_ne _ _ hne).symm.trans (h.ordered.fresh id hid))

end Lines

section Heeding

/-- A move of which nobody but the runner makes use of the reader, except to close it, and with
which the runner does not run ahead of the clock. -/
def Move.Fits (limit : Nat) : Move ε → Prop
  | .others m _ => m.IsAside
  | .work now => now ≤ limit
  | .stop _ | .sway _ => True

/-- What holds of a scene whose runner is the only one to use the reader, but for closing it. -/
structure Heeding (s : Scene ε) (limit : Nat) : Prop where
  serving : s.traffic.Serving
  aside : s.traffic.Aside
  lined : s.Lined
  heeds : s.runner.phase.Heeds s.runner.stopRequested s.runner.stops
    s.traffic.endpoint.client.reader limit

theorem heeding_start {t : Traffic} (h : t.Sound) (ha : t.Aside) (timing : Timing) (x : ε) :
    (start t timing x).Heeding limit :=
  ⟨h.serving, ha, lined_start h.ordered timing x, trivial⟩

/-- Nobody can take a step at this time. -/
structure IsStill (s : Scene ε) (now : Nat) : Prop where
  runner : Runner.ready now s.task s.state = false
  others : ∀ id k, s.traffic.tickets id = some k → k.call.ready now id s.traffic.endpoint = false

/-- When nobody can go on, nobody stands in line but the runner. -/
theorem Heeding.head?_line (h : s.Heeding limit) {now : Nat} (hstill : s.IsStill now) {id : TaskId}
    (hid : s.traffic.endpoint.channel.line.head? = some id) : id = s.task := by
  by_contra hne
  have hput : s.company.tickets id = s.traffic.tickets id := Traffic.put_of_ne _ _ hne
  have hmem : id ∈ s.traffic.endpoint.channel.line := List.mem_of_mem_head? hid
  cases hk : s.traffic.tickets id with
  | none => exact h.lined.ordered.strangers id (hput.trans hk) hmem
  | some k =>
      have hstands := h.lined.ordered.stands id k (hput.trans hk)
      have hserves := h.serving id k hk
      have haside := h.aside id k hk
      have hready := hstill.others id k hk
      cases hc : k.call with
      | entered r =>
          rw [hc] at hstands
          exact hstands hmem
      | sent w interrupts =>
          rw [hc] at hstands
          exact hstands hmem
      | asking ps =>
          rw [hc] at hready
          cases hready
      | closing handle closing =>
          rw [hc] at hready
          cases hready
      | inLine u =>
          rw [hc] at hready
          simp [Call.ready, hasReader, hid] at hready
      | polling purpose timeout restored p =>
          rw [hc] at hserves
          rw [show k.request = _ from hserves] at haside
          exact haside

/-- A replay or a poll of a runner that was asked to stop is ready. -/
theorem Heeding.call_ready (h : s.Heeding limit) {now : Nat} (hstill : s.IsStill now)
    (hstop : s.runner.stopRequested = true) {isReplay : Bool} {call : Call SharedLog} {r : Request}
    (hcall : Runner.HeedsIn s.runner.stopRequested s.traffic.endpoint.client.reader isReplay call)
    (hticket : s.runner.phase.ticket? s.runner.timing = some ⟨r, call⟩) :
    call.ready now s.task s.traffic.endpoint = true := by
  have hown : s.company.tickets s.task = some ⟨r, call⟩ := (Traffic.put_self _ _ _).trans hticket
  have hstands := h.lined.ordered.stands s.task _ hown
  obtain ⟨⟨purpose, timeout, hserves, -⟩, hcalled, hwoken⟩ := hcall
  cases call with
  | entered r => rfl
  | asking ps => rfl
  | closing handle closing => rfl
  | sent w interrupts =>
      obtain ⟨id, c, hsend⟩ := hserves
      cases hsend
  | inLine u =>
      have hmem : s.task ∈ s.traffic.endpoint.channel.line := hstands
      cases hhead : s.traffic.endpoint.channel.line.head? with
      | none =>
          rw [List.head?_eq_none_iff.1 hhead] at hmem
          cases hmem
      | some id =>
          have hid := h.head?_line hstill hhead
          simp [Call.ready, hasReader, hhead, hid]
  | polling purpose timeout restored p =>
      cases p with
      | started timeout => rfl
      | parked deadline seen =>
          have hlt := hcalled.2 (hwoken hstop)
          have hne : seen ≠ Reader.seenNow s.traffic.endpoint.client.log
              s.traffic.endpoint.client.reader := by
            rintro rfl
            exact Nat.lt_irrefl _ hlt
          have hready : (decide (seen ≠ Reader.seenNow s.traffic.endpoint.client.log
              s.traffic.endpoint.client.reader) || decide (deadline ≤ now)) = true := by
            simp [hne]
          exact hready

/-- When nobody can go on, a runner that was asked to stop has ended. -/
theorem Heeding.finished (h : s.Heeding limit) (hstop : s.runner.stopRequested = true)
    (hstill : s.IsStill limit) : ∃ result, s.runner.phase = .finished result := by
  have hready := hstill.runner
  have hheeds := h.heeds
  unfold Runner.ready at hready
  cases hp : s.runner.phase with
  | finished result => exact ⟨result, rfl⟩
  | restoring => simp [state, hp] at hready
  | tailing => simp [state, hp] at hready
  | replaying call =>
      rw [hp] at hheeds
      have hcall := h.call_ready hstill hstop hheeds (congrArg _ hp)
      simp [state, hp, hcall] at hready
  | polling call =>
      rw [hp] at hheeds
      have hcall := h.call_ready hstill hstop hheeds (congrArg _ hp)
      simp [state, hp, hcall] at hready
  | applying todo isReplay start =>
      rw [hp] at hheeds
      cases todo with
      | nil => simp [state, hp] at hready
      | cons q later =>
          cases start with
          | none => simp [state, hp] at hready
          | some n => simp [state, hp, hheeds n rfl] at hready
  | backingOff deadline stops isReplay =>
      rw [hp] at hheeds
      simp [state, hp, Nat.ne_of_gt (hheeds.2 hstop)] at hready

variable [Executor ε]

/-- Every move that fits leaves a runner that heeds a request to stop. -/
theorem Heeding.perform (hdelay : ∀ (x : ε) q, Executor.delay x q = 0) (h : s.Heeding limit)
    {m : Move ε} (hm : m.Fits limit) : (s.perform m).Heeding limit := by
  cases m with
  | others m hquiet =>
      exact ⟨Traffic.perform_serving h.serving m, h.aside.perform hm, h.lined.others m hquiet,
        h.heeds.spares (Traffic.perform_spares h.serving h.aside m)⟩
  | work now =>
      exact ⟨h.serving, h.aside, h.lined.work now,
        Runner.step_heeds (s := s.state) (fun q => hdelay s.executor.inner q) hm h.heeds⟩
  | stop now =>
      exact ⟨h.serving, h.aside,
        ⟨h.lined.ordered.perform (.interrupt now), h.lined.apart, h.lined.older⟩,
        h.heeds.requestStop⟩
  | sway x => exact ⟨h.serving, h.aside, ⟨h.lined.ordered, h.lined.apart, h.lined.older⟩, h.heeds⟩

theorem Heeding.run (hdelay : ∀ (x : ε) q, Executor.delay x q = 0) (h : s.Heeding limit)
    {moves : List (Move ε)} (hm : ∀ m ∈ moves, m.Fits limit) : (s.run moves).Heeding limit := by
  induction moves generalizing s with
  | nil => exact h
  | cons m moves ih =>
      exact ih (h.perform hdelay (hm m List.mem_cons_self))
        fun m' hm' => hm m' (List.mem_cons_of_mem m hm')

end Heeding

section Handing

/-- A runner that was asked to stop completes no replay. -/
theorem Heeding.not_replayed (h : s.Heeding limit) (hstop : s.runner.stopRequested = true)
    {call : Call SharedLog} (hp : s.runner.phase = .replaying call) (now : Nat) (reply : Reply) :
    (call.step now s.task s.traffic.endpoint).1 ≠ .done (.ok reply) := by
  have hheeds := h.heeds
  rw [hp] at hheeds
  obtain ⟨purpose, timeout, hserves, hreplay⟩ := hheeds.serves
  obtain ⟨withOffsets, rfl⟩ := hreplay rfl
  exact Call.step_not_replayed hserves (hheeds.woken hstop) reply

variable [Executor ε]

/-- A step of a runner that was asked to stop and has no poll in progress starts none, and leaves of
what is in hand what it does not hand over. -/
theorem Heeding.work_inHand (h : s.Heeding limit) (hstop : s.runner.stopRequested = true)
    (hp : s.runner.phase.isPolling = false) (now : Nat) :
    (s.work now).runner.phase.isPolling = false ∧
      (Runner.handedBy now s.runner).toList ++ (s.work now).runner.phase.inHand <+:
        s.runner.phase.inHand :=
  Runner.step_inHand (s := s.state) now s.task hstop hp
    fun _ reply hcall => h.not_replayed hstop hcall now reply

/-- A step of a poll hands over nothing, and the poll goes on, brings commands, or fails. -/
theorem work_polling {call : Call SharedLog} (hp : s.runner.phase = .polling call) (now : Nat) :
    Runner.handedBy now s.runner = none ∧
      ((s.work now).runner.phase.isPolling = true ∨
        (∃ cs, (s.work now).runner.phase = .applying cs false none) ∨
        (s.work now).runner.phase.IsIdle) := by
  refine ⟨by rw [Runner.handedBy, hp], ?_⟩
  have hcall : s.runner.phase.call? = some (false, call) := hp ▸ rfl
  have hwork : (s.work now).runner = (Runner.stepCall now s.task s.state false call).runner :=
    congrArg Runner.State.runner (Runner.step_of_call hcall)
  rw [hwork]
  unfold Runner.stepCall
  rcases call.step now s.task s.state.endpoint with ⟨progress, e⟩
  cases progress with
  | waiting call' => exact .inl rfl
  | done result =>
      rcases Runner.afterCall_cases now s.runner false result with
        ⟨reply, -, todo, hphase⟩ | ⟨err, -, hfailure⟩
      · exact .inr (.inl ⟨todo, hphase⟩)
      · refine .inr (.inr ?_)
        dsimp only [state]
        rw [hfailure]
        exact Runner.afterFailure_isIdle _ _ _ _

/-- What the runner still hands over along moves is in hand already, or has been brought by the one
poll that is in progress. -/
def HandsOut (s : Scene ε) (moves : List (Move ε)) : Prop :=
  ∃ more, (s.run moves).executor.handed = s.executor.handed ++ more ∧
    (more <+: s.runner.phase.inHand ∨
      ∃ first now last cs, moves = first ++ .work now :: last ∧
        (∀ part, part <+: first → (s.run part).runner.phase.isPolling = true) ∧
        ((s.run first).work now).runner.phase = .applying cs false none ∧ more <+: cs)

variable {m : Move ε} {moves : List (Move ε)}

theorem perform_stopRequested (h : s.runner.stopRequested = true) (m : Move ε) :
    (s.perform m).runner.stopRequested = true := by
  cases m with
  | work now => exact (Runner.step_timing now s.task s.state).2.trans h
  | others m hm => exact h
  | stop now => rfl
  | sway x => exact h

/-- Nothing but a step of the runner hands over commands. -/
theorem perform_handed (s : Scene ε) (m : Move ε) :
    (∃ now, m = .work now) ∨ ((s.perform m).executor.handed = s.executor.handed ∧
      (s.perform m).runner.phase = s.runner.phase) := by
  cases m with
  | work now => exact .inl ⟨now, rfl⟩
  | others m hm => exact .inr ⟨rfl, rfl⟩
  | stop now => exact .inr ⟨rfl, rfl⟩
  | sway x => exact .inr ⟨rfl, rfl⟩

/-- Once no poll is in progress a runner that was asked to stop hands over nothing but what is in
hand. -/
theorem Heeding.run_inHand (hdelay : ∀ (x : ε) q, Executor.delay x q = 0) (h : s.Heeding limit)
    (hstop : s.runner.stopRequested = true) (hp : s.runner.phase.isPolling = false)
    (hm : ∀ m ∈ moves, m.Fits limit) :
    ∃ more, (s.run moves).executor.handed = s.executor.handed ++ more ∧
      more <+: s.runner.phase.inHand := by
  induction moves generalizing s with
  | nil => exact ⟨[], (List.append_nil _).symm, List.nil_prefix⟩
  | cons m moves ih =>
      obtain ⟨given, hgiven, hp', hprefix⟩ : ∃ given,
          (s.perform m).executor.handed = s.executor.handed ++ given ∧
          (s.perform m).runner.phase.isPolling = false ∧
            given ++ (s.perform m).runner.phase.inHand <+: s.runner.phase.inHand := by
        rcases perform_handed s m with ⟨now, rfl⟩ | ⟨hsame, hphase⟩
        · exact ⟨_, handed_work s now, h.work_inHand hstop hp now⟩
        · refine ⟨[], by rw [hsame, List.append_nil], ?_⟩
          rw [hphase]
          exact ⟨hp, List.prefix_refl _⟩
      obtain ⟨more, hmore, hle⟩ := ih (h.perform hdelay (hm m List.mem_cons_self))
        (perform_stopRequested hstop m) hp' fun m' hm' => hm m' (List.mem_cons_of_mem m hm')
      refine ⟨given ++ more, ?_, ((List.prefix_append_right_inj given).2 hle).trans hprefix⟩
      rw [← List.append_assoc, ← hgiven]
      exact hmore

/-- What a poll brings that goes on is what it brings after the next move. -/
theorem HandsOut.cons (hp : s.runner.phase.isPolling = true)
    (hsame : (s.perform m).executor.handed = s.executor.handed)
    (hp' : (s.perform m).runner.phase.isPolling = true) (h : (s.perform m).HandsOut moves) :
    s.HandsOut (m :: moves) := by
  obtain ⟨more, hmore, hcase⟩ := h
  refine ⟨more, by rw [← hsame]; exact hmore, ?_⟩
  rcases hcase with hnone | ⟨first, now, last, cs, rfl, hpolls, hcs, hle⟩
  · left
    rw [Runner.Phase.inHand_of_isPolling hp', List.prefix_nil] at hnone
    rw [hnone]
    exact List.nil_prefix
  · refine .inr ⟨m :: first, now, last, cs, rfl, fun part hpart => ?_, hcs, hle⟩
    rcases List.prefix_cons_iff.1 hpart with rfl | ⟨part, rfl, hpart'⟩
    · exact hp
    · exact hpolls part hpart'

/-- A step that ends the poll in progress hands over nothing, and then what it has brought is handed
over. -/
theorem Heeding.handsOut_ended (hdelay : ∀ (x : ε) q, Executor.delay x q = 0) {now : Nat}
    (h : (s.work now).Heeding limit) (hstop : (s.work now).runner.stopRequested = true)
    (hp : s.runner.phase.isPolling = true) (hp' : (s.work now).runner.phase.isPolling = false)
    (hm : ∀ m ∈ moves, m.Fits limit) : s.HandsOut (.work now :: moves) := by
  obtain ⟨call, hcall⟩ := Runner.Phase.eq_polling hp
  obtain ⟨hnone, hafter⟩ := work_polling hcall now
  obtain ⟨more, hmore, hle⟩ := h.run_inHand hdelay hstop hp' hm
  rw [handed_work, hnone, Option.toList_none, List.append_nil] at hmore
  refine ⟨more, hmore, ?_⟩
  rcases hafter with hgoes | ⟨cs, hcs⟩ | hidle
  · rw [hp'] at hgoes
    cases hgoes
  · rw [hcs] at hle
    refine .inr ⟨[], now, moves, cs, rfl, fun part hpart => ?_, hcs, hle⟩
    rw [List.prefix_nil.1 hpart]
    exact hp
  · rw [hidle.empty, List.prefix_nil] at hle
    rw [hle]
    exact .inl List.nil_prefix

/-- What a runner that was asked to stop still hands over is in hand, or is what the poll in
progress brings. -/
theorem Heeding.handsOut (hdelay : ∀ (x : ε) q, Executor.delay x q = 0) (h : s.Heeding limit)
    (hstop : s.runner.stopRequested = true) (hm : ∀ m ∈ moves, m.Fits limit) :
    s.HandsOut moves := by
  induction moves generalizing s with
  | nil => exact ⟨[], (List.append_nil _).symm, .inl List.nil_prefix⟩
  | cons m moves ih =>
      have hnext := h.perform hdelay (hm m List.mem_cons_self)
      have hstop' := perform_stopRequested hstop m
      have hm' : ∀ m' ∈ moves, m'.Fits limit := fun m' hm' => hm m' (List.mem_cons_of_mem m hm')
      cases hp : s.runner.phase.isPolling with
      | false =>
          obtain ⟨more, hmore, hle⟩ := h.run_inHand hdelay hstop hp hm
          exact ⟨more, hmore, .inl hle⟩
      | true =>
          rcases perform_handed s m with ⟨now, rfl⟩ | ⟨hsame, hphase⟩
          · cases hp' : (s.work now).runner.phase.isPolling with
            | false => exact hnext.handsOut_ended hdelay hstop' hp hp' hm'
            | true =>
                obtain ⟨call, hcall⟩ := Runner.Phase.eq_polling hp
                refine .cons hp ?_ hp' (ih hnext hstop' hm')
                change (s.work now).executor.handed = _
                rw [handed_work, (work_polling hcall now).1]
                exact List.append_nil _
          · refine .cons hp hsame ?_ (ih hnext hstop' hm')
            rw [hphase]
            exact hp

end Handing

section Stopping

variable [Executor ε]

/-- What becomes of a request to stop, at this time and along more moves. -/
structure Stops (s : Scene ε) (now : Nat) (more : List (Move ε)) : Prop where
  /-- When nobody can go on, the runner has ended. -/
  ends : s.IsStill now → ∃ result, s.runner.phase = .finished result
  /-- A replay that is in progress does not succeed. -/
  restores : ∀ call, s.runner.phase = .replaying call → ∀ t reply,
    (call.step t s.task s.traffic.endpoint).1 ≠ .done (.ok reply)
  hands : s.HandsOut more

/-- A request to stop gets through to a runner that is set to work on a channel that has been used
in any way, while nobody else uses its reader but to close it and the executor does not block. -/
theorem run_stops {now : Nat} {client client' : SharedLog} {topic : String}
    {e : Endpoint SharedLog} (hmake : Endpoint.make now client topic = (.ok e, client'))
    (before : List Traffic.Move) (haside : (Traffic.run { endpoint := e } before).Aside)
    (timing : Timing) (x : ε) (hdelay : ∀ (x : ε) q, Executor.delay x q = 0)
    (moves more : List (Move ε)) (hm : ∀ m ∈ moves ++ more, m.Fits limit)
    (hstop : ((start (Traffic.run { endpoint := e } before) timing x).run
      moves).runner.stopRequested = true) :
    ((start (Traffic.run { endpoint := e } before) timing x).run moves).Stops limit more := by
  have hs := Traffic.run_sound (Traffic.sound_of_make hmake) before
  have h := (heeding_start hs haside timing x).run hdelay fun m hmem =>
    hm m (List.mem_append_left more hmem)
  exact ⟨h.finished hstop, fun call hcall => h.not_replayed hstop hcall,
    h.handsOut hdelay hstop fun m hmem => hm m (List.mem_append_right moves hmem)⟩

end Stopping

section Sample

theorem isEntity_orders : IsEntity "orders" := by decide

theorem isEntity_ghosts : IsEntity "ghosts" := by decide

/-- The runner has replayed one command and polls when it is asked to stop. -/
def stoppingMoves : List (Move Engine) :=
  [.others (.enter (.send ⟨.table, "orders", .create, isEntity_orders⟩ { statement := "CREATE" }))
    trivial,
    .others (.step 2 0) trivial] ++
  List.replicate 5 (.work 0) ++ List.replicate 8 (.work 2000) ++ [.stop 2000]

/-- Before the runner has noticed that another command is sent. -/
def stoppedMoves : List (Move Engine) :=
  [.others (.enter (.send ⟨.table, "ghosts", .drop, isEntity_ghosts⟩ { statement := "DROP" }))
    trivial,
    .others (.step 3 0) trivial] ++ List.replicate 5 (.work 2000)

/-- The scene when it is asked to stop. -/
def stopping : Scene Engine :=
  (start (Traffic.run { endpoint := .opened {} .json "commands" } sampleBefore) {} {}).run
    stoppingMoves

/-- What the poll in progress brings is still handed over before the runner ends. -/
theorem run_stops_sample :
    stopping.executor.handed.length = 1 ∧ stopping.runner.stopRequested = true ∧
      stopping.Stops 2000 stoppedMoves ∧ (stopping.run stoppedMoves).executor.handed.length = 2 ∧
      (stopping.run stoppedMoves).runner.result? =
        some (.ok { replayed := 1, executed := 0, failed := 1, lastOffset := some 1 }) := by
  refine ⟨by decide +kernel, by decide +kernel, ?_, by decide +kernel, by decide +kernel⟩
  refine run_stops (Endpoint.make_opened 0 {} .json "commands") sampleBefore (fun id k hk => ?_) {}
    ({} : Engine) (fun _ _ => rfl) stoppingMoves stoppedMoves ?_ (by decide +kernel)
  · rw [sampleBefore_tickets] at hk
    cases hk
  · simp [stoppingMoves, stoppedMoves, Move.Fits, Traffic.Move.IsAside, Request.IsAside]

end Sample

end Scene
end ReplicatedLog
