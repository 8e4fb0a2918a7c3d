import ReplicatedLog.Proofs.Channel.Shared
import Mathlib.Data.List.Induction

/-!
# Traffic on a channel

Any number of tasks make requests to one channel, take their steps in any order
and may be given up at any time, while the channel is interrupted and others use
its log.

* `Traffic` is the channel with the requests in progress and the steps that have been
  taken; `Traffic.run` makes any moves in their order, and a move that cannot be made
  changes nothing;
* `Traffic.Ordered`: every task stands in line where its call has to, so that at most
  one of them has the reading handle;
* `Traffic.Reads`: the reader of the channel is somewhere in its partition, and the
  replay in progress, if there is one, has brought what the reader has passed;
* `run_deeds`: every step that has been taken was taken after some of the moves, and
  `run_steps` says what holds of it.

What a call does between two points at which it waits is one step, and so is each of
the other moves: nobody else comes in between, as among tasks on one thread, which
give way only where they wait.  `Exchange` has the single accesses of polls and sends
to what they share, between which others do come.
-/

namespace ReplicatedLog

open Channel

/-- A request in progress. -/
structure Ticket where
  request : Request
  call : Call SharedLog

/-- The ticket after a step of its call, unless that was the last one. -/
def Ticket.after (k : Ticket) : Progress (Call SharedLog) Result → Option Ticket
  | .waiting call => some { k with call }
  | .done _ => none

/-- A step that a task has taken. -/
structure Deed where
  task : TaskId
  request : Request
  call : Call SharedLog
  before : Endpoint SharedLog
  progress : Progress (Call SharedLog) Result
  after : Endpoint SharedLog

/-- A channel with the requests in progress. -/
structure Traffic where
  endpoint : Endpoint SharedLog
  tickets : TaskId → Option Ticket := fun _ => none
  /-- The number for a new task. -/
  next : TaskId := 0
  /-- The steps that have been taken, in their order. -/
  deeds : List Deed := []

namespace Traffic

section Moves

/-- What can happen on a channel. -/
inductive Move
  /-- A new task makes a request. -/
  | enter (r : Request)
  /-- A task takes a step. -/
  | step (task : TaskId) (now : Nat)
  /-- A task is given up. -/
  | abandon (task : TaskId)
  | interrupt (now : Nat)
  /-- Others use the log. -/
  | onLog (op : Log.Operation)

/-- The ticket of a task replaced. -/
def put (t : Traffic) (task : TaskId) (k : Option Ticket) : TaskId → Option Ticket :=
  fun id => if id = task then k else t.tickets id

/-- The step that a task with a ticket takes. -/
def deed (t : Traffic) (task : TaskId) (now : Nat) (k : Ticket) : Deed :=
  let (progress, after) := k.call.step now task t.endpoint
  ⟨task, k.request, k.call, t.endpoint, progress, after⟩

/-- The traffic after a task with a ticket has taken a step. -/
def advance (t : Traffic) (task : TaskId) (now : Nat) (k : Ticket) : Traffic :=
  let d := t.deed task now k
  { t with
    endpoint := d.after
    tickets := t.put task (k.after d.progress)
    deeds := t.deeds ++ [d] }

/-- The traffic after a move. -/
def perform (t : Traffic) : Move → Traffic
  | .enter r =>
      { t with tickets := t.put t.next (some ⟨r, .entered r⟩), next := t.next + 1 }
  | .step task now =>
      match t.tickets task with
      | some k => t.advance task now k
      | none => t
  | .abandon task =>
      match t.tickets task with
      | some _ => { t with endpoint := t.endpoint.leave task, tickets := t.put task none }
      | none => t
  | .interrupt now => { t with endpoint := t.endpoint.interrupt now }
  | .onLog op => { t with endpoint := t.endpoint.onLog op }

/-- The traffic after moves. -/
def run (t : Traffic) (moves : List Move) : Traffic :=
  moves.foldl perform t

/-- What holds at first and is kept by every move holds after any moves. -/
theorem run_induction {P : Traffic → Prop} {t : Traffic} (h : P t)
    (hstep : ∀ t m, P t → P (t.perform m)) (moves : List Move) : P (t.run moves) := by
  induction moves generalizing t with
  | nil => exact h
  | cons m moves ih => exact ih (hstep t m h)

end Moves

section Tickets

variable {t : Traffic} {task id : TaskId} {k k' : Ticket}

theorem put_self (t : Traffic) (task : TaskId) (k : Option Ticket) : t.put task k task = k := by
  simp [put]

theorem put_of_ne (t : Traffic) (k : Option Ticket) (h : id ≠ task) :
    t.put task k id = t.tickets id := by
  simp [put, h]

/-- The ticket of a task is the one put there, or was there before. -/
theorem put_cases {new k : Option Ticket} (h : t.put task new id = k) :
    (id = task ∧ new = k) ∨ (id ≠ task ∧ t.tickets id = k) := by
  by_cases hid : id = task
  · rw [hid, put_self] at h
    exact Or.inl ⟨hid, h⟩
  · rw [put_of_ne t new hid] at h
    exact Or.inr ⟨hid, h⟩

theorem tickets_advance (t : Traffic) (task : TaskId) (now : Nat) (k : Ticket) :
    (t.advance task now k).tickets =
      t.put task (k.after (k.call.step now task t.endpoint).1) := rfl

/-- A ticket after a step of a task is what the step has left of its own, or was there before. -/
theorem advance_tickets {now : Nat} (h : (t.advance task now k).tickets id = some k') :
    (id = task ∧ k'.request = k.request ∧
        (k.call.step now task t.endpoint).1 = .waiting k'.call) ∨
      (id ≠ task ∧ t.tickets id = some k') := by
  rw [tickets_advance] at h
  rcases put_cases h with ⟨hid, hown⟩ | ⟨hid, hold⟩
  · left
    cases hp : (k.call.step now task t.endpoint).1 with
    | waiting c =>
        rw [hp] at hown
        cases hown
        exact ⟨hid, rfl, rfl⟩
    | done result =>
        rw [hp] at hown
        cases hown
  · exact Or.inr ⟨hid, hold⟩

/-- Every call in progress serves the request of its ticket. -/
def Serving (t : Traffic) : Prop :=
  ∀ id k, t.tickets id = some k → k.call.Serves k.request

theorem perform_serving (h : t.Serving) (m : Move) : (t.perform m).Serving := by
  intro id k' hk'
  cases m with
  | enter r =>
      rcases put_cases hk' with ⟨-, hnew⟩ | ⟨-, hold⟩
      · cases hnew
        rfl
      · exact h id k' hold
  | step task now =>
      simp only [perform] at hk'
      split at hk'
      next k hk =>
        rcases advance_tickets hk' with ⟨-, hr, hw⟩ | ⟨-, hold⟩
        · rw [hr]
          exact Call.step_serves (h task k hk) hw
        · exact h id k' hold
      next => exact h id k' hk'
  | abandon task =>
      simp only [perform] at hk'
      split at hk'
      · rcases put_cases hk' with ⟨-, hnew⟩ | ⟨-, hold⟩
        · cases hnew
        · exact h id k' hold
      · exact h id k' hk'
  | interrupt now => exact h id k' hk'
  | onLog op => exact h id k' hk'

/-- Every move lets the endpoint follow. -/
theorem perform_follows (t : Traffic) (m : Move) :
    t.endpoint.Follows (t.perform m).endpoint := by
  cases m with
  | enter r => exact .refl _
  | step task now =>
      simp only [perform]
      split
      next k _ => exact Call.step_follows now task t.endpoint k.call
      next => exact .refl _
  | abandon task =>
      simp only [perform]
      split
      · exact (Endpoint.keeps_leave _ task).toFollows
      · exact .refl _
  | interrupt now => exact (Endpoint.keeps_interrupt _ now).toFollows
  | onLog op => exact (Endpoint.keeps_onLog _ op).toFollows

theorem run_follows (t : Traffic) (moves : List Move) :
    t.endpoint.Follows (t.run moves).endpoint :=
  run_induction (P := fun t' => t.endpoint.Follows t'.endpoint) (.refl _)
    (fun t' m h => h.trans (perform_follows t' m)) moves

end Tickets

section Order

/-- Every task stands in line where its call has to, and nobody else stands there. -/
structure Ordered (t : Traffic) : Prop where
  nodup : t.endpoint.channel.line.Nodup
  stands : ∀ id k, t.tickets id = some k → k.call.StandsIn t.endpoint.channel.line id
  strangers : ∀ id, t.tickets id = none → id ∉ t.endpoint.channel.line
  fresh : ∀ id, t.next ≤ id → t.tickets id = none

variable {t : Traffic} {task id : TaskId} {k k' : Ticket}

/-- A step of a task keeps the order. -/
theorem Ordered.advance (h : t.Ordered) (hk : t.tickets task = some k) (now : Nat) :
    (t.advance task now k).Ordered := by
  obtain ⟨hline, hafter⟩ := Call.step_lined now h.nodup (h.stands task k hk)
  refine ⟨hline.nodup h.nodup, ?_, ?_, ?_⟩
  · intro id k' hk'
    rcases advance_tickets hk' with ⟨rfl, -, hw⟩ | ⟨hne, hold⟩
    · rw [hw] at hafter
      exact hafter
    · exact (h.stands id k' hold).lineStep hline hne
  · intro id hnone
    rw [tickets_advance] at hnone
    rcases put_cases hnone with ⟨rfl, hown⟩ | ⟨hid, hold⟩
    · cases hp : (k.call.step now id t.endpoint).1 with
      | waiting c =>
          rw [hp] at hown
          cases hown
      | done result =>
          rw [hp] at hafter
          exact hafter
    · exact fun hm => h.strangers id hold ((hline.mem_iff hid).1 hm)
  · intro id hid
    have hne : id ≠ task := by
      rintro rfl
      rw [h.fresh id hid] at hk
      cases hk
    exact (put_of_ne t _ hne).trans (h.fresh id hid)

/-- Every move keeps the order. -/
theorem Ordered.perform (h : t.Ordered) (m : Move) : (t.perform m).Ordered := by
  cases m with
  | enter r =>
      refine ⟨h.nodup, ?_, ?_, ?_⟩
      · intro id k hk
        rcases put_cases hk with ⟨hid, hnew⟩ | ⟨-, hold⟩
        · cases hnew
          exact h.strangers id (h.fresh id (Nat.le_of_eq hid.symm))
        · exact h.stands id k hold
      · intro id hnone
        rcases put_cases hnone with ⟨-, hnew⟩ | ⟨-, hold⟩
        · cases hnew
        · exact h.strangers id hold
      · intro id hid
        have hlt : t.next < id := hid
        exact (put_of_ne t _ (Nat.ne_of_gt hlt)).trans (h.fresh id (Nat.le_of_lt hlt))
  | step task now =>
      simp only [Traffic.perform]
      split
      next k hk => exact h.advance hk now
      next => exact h
  | abandon task =>
      simp only [Traffic.perform]
      split
      next k hk =>
        have hline : Call.LineStep task t.endpoint.channel.line
            (t.endpoint.channel.line.erase task) := .leave
        refine ⟨hline.nodup h.nodup, ?_, ?_, ?_⟩
        · intro id k' hk'
          rcases put_cases hk' with ⟨-, hnew⟩ | ⟨hid, hold⟩
          · cases hnew
          · exact (h.stands id k' hold).lineStep hline hid
        · intro id hnone hm
          rcases put_cases hnone with ⟨rfl, -⟩ | ⟨hid, hold⟩
          · exact h.nodup.not_mem_erase hm
          · exact h.strangers id hold ((hline.mem_iff hid).1 hm)
        · intro id hid
          by_cases hne : id = task
          · exact hne ▸ put_self t task none
          · exact (put_of_ne t none hne).trans (h.fresh id hid)
      next => exact h
  | interrupt now => exact ⟨h.nodup, h.stands, h.strangers, h.fresh⟩
  | onLog op => exact ⟨h.nodup, h.stands, h.strangers, h.fresh⟩

/-- A call that moves the reader stands at the head of the line. -/
theorem head_of_movesReader {e : Endpoint SharedLog} {c : Call SharedLog}
    (h : c.MovesReader e task) (hs : c.StandsIn e.channel.line task) :
    e.channel.line.head? = some task := by
  cases c with
  | entered r => cases h
  | sent w interrupts => cases h
  | asking ps => cases h
  | closing handle closing => cases h
  | polling purpose timeout restored p => exact hs
  | inLine u =>
      cases u with
      | endOffset => cases h
      | close => cases h
      | poll purpose timeout =>
          cases purpose with
          | batch => cases h
          | commands => cases h
          | replay withOffsets =>
              have hhead : e.channel.hasReader task = true := h
              simpa [hasReader] using hhead

end Order

section Reading

/-- The reader is somewhere in the partition of the channel, and a replay in progress has brought
what the reader has passed. -/
structure Reads (t : Traffic) : Prop where
  reader : ∃ n, t.endpoint.ReaderAt n
  told : ∀ id k, t.tickets id = some k → k.call.Told t.endpoint

variable {t : Traffic} {task id : TaskId} {k k' : Ticket}

/-- What keeps the reader in its place keeps what has been read. -/
theorem Reads.keeps {e : Endpoint SharedLog} (h : t.Reads) (hk : t.endpoint.Keeps e) :
    (∃ n, e.ReaderAt n) ∧ ∀ id k, t.tickets id = some k → k.call.Told e := by
  obtain ⟨n, hat⟩ := h.reader
  exact ⟨⟨n, hk.readerAt hat⟩, fun id k hid => (h.told id k hid).keeps hk⟩

/-- While one task moves the reader, no other one has a poll in progress. -/
theorem Ordered.not_polling (h : t.Ordered) (hk : t.tickets task = some k)
    (hm : k.call.MovesReader t.endpoint task) (hk' : t.tickets id = some k') (hne : id ≠ task)
    (purpose : Purpose) (timeout : Nat) (restored : List QueuedCommand)
    (p : Client.Poll SharedLog) : k'.call ≠ .polling purpose timeout restored p := by
  intro hc
  have hhead := head_of_movesReader hm (h.stands task k hk)
  have hother := h.stands id k' hk'
  rw [hc] at hother
  have hfront : t.endpoint.channel.line.head? = some id := hother
  rw [hfront] at hhead
  exact hne (Option.some.inj hhead)

/-- A step of a task keeps what has been read. -/
theorem Reads.advance (h : t.Reads) (ho : t.Ordered) (hk : t.tickets task = some k) (now : Nat) :
    (t.advance task now k).Reads := by
  obtain ⟨hreader, hown⟩ := Call.step_told now task h.reader (h.told task k hk)
  refine ⟨hreader, fun id k' hk' => ?_⟩
  rcases advance_tickets hk' with ⟨rfl, -, hw⟩ | ⟨hne, hold⟩
  · exact hown _ hw
  · by_cases hm : k.call.MovesReader t.endpoint task
    · exact .of_not_replay fun withOffsets => ho.not_polling hk hm hold hne (.replay withOffsets)
    · exact (h.told id k' hold).keeps (Call.step_keeps now task t.endpoint hm)

/-- Every move keeps what has been read. -/
theorem Reads.perform (h : t.Reads) (ho : t.Ordered) (m : Move) : (t.perform m).Reads := by
  cases m with
  | enter r =>
      refine ⟨h.reader, fun id k hk => ?_⟩
      rcases put_cases hk with ⟨-, hnew⟩ | ⟨-, hold⟩
      · cases hnew
        trivial
      · exact h.told id k hold
  | step task now =>
      simp only [Traffic.perform]
      split
      next k hk => exact h.advance ho hk now
      next => exact h
  | abandon task =>
      simp only [Traffic.perform]
      split
      · obtain ⟨hreader, htold⟩ := h.keeps (Endpoint.keeps_leave t.endpoint task)
        refine ⟨hreader, fun id k hk => ?_⟩
        rcases put_cases hk with ⟨-, hnew⟩ | ⟨-, hold⟩
        · cases hnew
        · exact htold id k hold
      · exact h
  | interrupt now =>
      obtain ⟨hreader, htold⟩ := h.keeps (Endpoint.keeps_interrupt t.endpoint now)
      exact ⟨hreader, htold⟩
  | onLog op =>
      obtain ⟨hreader, htold⟩ := h.keeps (Endpoint.keeps_onLog t.endpoint op)
      exact ⟨hreader, htold⟩

end Reading

section Steps

/-- What holds of the traffic on a channel from its making on. -/
structure Sound (t : Traffic) : Prop where
  serving : t.Serving
  ordered : t.Ordered
  reads : t.Reads

theorem Sound.perform {t : Traffic} (h : t.Sound) (m : Move) : (t.perform m).Sound :=
  ⟨perform_serving h.serving m, h.ordered.perform m, h.reads.perform h.ordered m⟩

theorem run_sound {t : Traffic} (h : t.Sound) (moves : List Move) : (t.run moves).Sound :=
  run_induction h (fun _ m h => h.perform m) moves

/-- A new channel has no traffic yet. -/
theorem sound_of_make {now : Nat} {client client' : SharedLog} {topic : String}
    {e : Endpoint SharedLog} (h : Endpoint.make now client topic = (.ok e, client')) :
    Sound { endpoint := e } := by
  have hline : e.channel.line = [] := by
    unfold Endpoint.make at h
    dsimp only at h
    split at h
    · cases h
    · cases h
      rfl
  have hnone : ∀ id k, ({ endpoint := e } : Traffic).tickets id ≠ some k := by
    intro id k hk
    cases hk
  refine ⟨?_, ⟨?_, ?_, ?_, fun _ _ => rfl⟩, ⟨(Endpoint.make_readerAt h).2, ?_⟩⟩
  · exact fun id k hk => absurd hk (hnone id k)
  · rw [hline]
    exact List.nodup_nil
  · exact fun id k hk => absurd hk (hnone id k)
  · intro id _
    rw [hline]
    exact List.not_mem_nil
  · exact fun id k hk => absurd hk (hnone id k)

theorem deeds_advance (t : Traffic) (task : TaskId) (now : Nat) (k : Ticket) :
    (t.advance task now k).deeds = t.deeds ++ [t.deed task now k] := rfl

/-- A move leaves the steps that have been taken, or is one of a task with a ticket. -/
theorem perform_deeds (t : Traffic) (m : Move) :
    (t.perform m).deeds = t.deeds ∨
      ∃ task now k, t.tickets task = some k ∧ t.perform m = t.advance task now k := by
  cases m with
  | enter r => exact Or.inl rfl
  | interrupt now => exact Or.inl rfl
  | onLog op => exact Or.inl rfl
  | abandon task =>
      simp only [Traffic.perform]
      split <;> exact Or.inl rfl
  | step task now =>
      simp only [Traffic.perform]
      split
      next k hk => exact Or.inr ⟨task, now, k, hk, rfl⟩
      next => exact Or.inl rfl

/-- Every step that has been taken was taken after some of the moves, by a task with a ticket. -/
theorem run_deeds {t : Traffic} (hd : t.deeds = []) {moves : List Move} {pre post : List Deed}
    {d : Deed} (h : (t.run moves).deeds = pre ++ d :: post) :
    ∃ first task now k, first <+: moves ∧ (t.run first).deeds = pre ∧
      (t.run first).tickets task = some k ∧ d = (t.run first).deed task now k := by
  induction moves using List.reverseRecOn generalizing post with
  | nil =>
      rw [show t.run [] = t from rfl, hd] at h
      simp at h
  | append_singleton moves m ih =>
      have hrun : t.run (moves ++ [m]) = (t.run moves).perform m := by
        simp [run]
      rw [hrun] at h
      rcases perform_deeds (t.run moves) m with hsame | ⟨task, now, k, hk, hmore⟩
      · obtain ⟨first, task, now, k, hfirst, rest⟩ := ih (hsame.symm.trans h)
        exact ⟨first, task, now, k, hfirst.trans (List.prefix_append _ _), rest⟩
      · rw [hmore, deeds_advance] at h
        rcases Channel.split_concat h with ⟨-, hpre, hlast⟩ | ⟨post', -, hpre⟩
        · exact ⟨moves, task, now, k, List.prefix_append _ _, hpre, hk, hlast.symm⟩
        · obtain ⟨first, task, now, k, hfirst, rest⟩ := ih hpre
          exact ⟨first, task, now, k, hfirst.trans (List.prefix_append _ _), rest⟩

/-- The steps that a task has taken. -/
def stepsOf (t : Traffic) (task : TaskId) : List Deed :=
  t.deeds.filter fun d => d.task == task

theorem stepsOf_advance_self (t : Traffic) (task : TaskId) (now : Nat) (k : Ticket) :
    (t.advance task now k).stepsOf task = t.stepsOf task ++ [t.deed task now k] := by
  rw [stepsOf, advance, List.filter_append]
  simp [stepsOf, deed]

theorem stepsOf_advance_of_ne (t : Traffic) {task id : TaskId} (now : Nat) (k : Ticket)
    (h : id ≠ task) : (t.advance task now k).stepsOf id = t.stepsOf id := by
  rw [stepsOf, advance, List.filter_append]
  simp [stepsOf, deed, h.symm]

/-- A task that is over has no ticket, and none that is new will have its number. -/
def OverFor (t : Traffic) (task : TaskId) : Prop :=
  t.tickets task = none ∧ task < t.next

theorem OverFor.perform {t : Traffic} {task : TaskId} (h : t.OverFor task) (m : Move) :
    (t.perform m).OverFor task := by
  cases m with
  | enter r =>
      exact ⟨(put_of_ne t _ (Nat.ne_of_lt h.2)).trans h.1, Nat.lt_succ_of_lt h.2⟩
  | step id now =>
      simp only [Traffic.perform]
      split
      next k hk =>
        have hne : task ≠ id := by
          rintro rfl
          rw [h.1] at hk
          cases hk
        exact ⟨(put_of_ne t _ hne).trans h.1, h.2⟩
      next => exact h
  | abandon id =>
      simp only [Traffic.perform]
      split
      next k hk =>
        have hne : task ≠ id := by
          rintro rfl
          rw [h.1] at hk
          cases hk
        exact ⟨(put_of_ne t _ hne).trans h.1, h.2⟩
      next => exact h
  | interrupt now => exact h
  | onLog op => exact h

/-- A task that has taken its last step is over. -/
theorem overFor_of_done {t : Traffic} (h : t.Ordered) (hd : t.deeds = []) (moves : List Move) :
    ∀ d ∈ (t.run moves).deeds, ∀ result, d.progress = .done result →
      (t.run moves).OverFor d.task := by
  have hall : (t.run moves).Ordered ∧ ∀ d ∈ (t.run moves).deeds, ∀ result,
      d.progress = .done result → (t.run moves).OverFor d.task := by
    refine run_induction (P := fun t => t.Ordered ∧ ∀ d ∈ t.deeds, ∀ result,
      d.progress = .done result → t.OverFor d.task) ⟨h, by simp [hd]⟩ ?_ moves
    intro t m ⟨ho, hover⟩
    refine ⟨ho.perform m, fun d hmem result hr => ?_⟩
    have hold : d ∈ t.deeds → (t.perform m).OverFor d.task := fun hd =>
      (hover d hd result hr).perform m
    rcases perform_deeds t m with hsame | ⟨task, now, k, hk, hmore⟩
    · exact hold (hsame ▸ hmem)
    · rw [hmore, deeds_advance] at hmem
      rcases List.mem_append.1 hmem with hmem | hmem
      · exact hold hmem
      · rw [List.mem_singleton] at hmem
        subst hmem
        have hlt : task < t.next := Nat.lt_of_not_le fun hle => by
          rw [ho.fresh task hle] at hk
          cases hk
        rw [hmore]
        refine ⟨?_, hlt⟩
        change (t.advance task now k).tickets task = none
        rw [tickets_advance, put_self,
          show (k.call.step now task t.endpoint).1 = .done result from hr]
        rfl
  exact hall.2

/-- No step of a task follows its last one. -/
theorem run_last {t : Traffic} (h : t.Ordered) (hd : t.deeds = []) {moves : List Move}
    {pre post : List Deed} {d : Deed} {result : Result}
    (hsplit : (t.run moves).deeds = pre ++ d :: post) (hr : d.progress = .done result) :
    ∀ d' ∈ post, d'.task ≠ d.task := by
  intro d' hd' htask
  obtain ⟨between, after, rfl⟩ := List.append_of_mem hd'
  rw [← List.cons_append, ← List.append_assoc] at hsplit
  obtain ⟨first, task, now, k, -, hpre, hk, rfl⟩ := run_deeds hd hsplit
  have hover := overFor_of_done h hd first d (by rw [hpre]; simp) result hr
  have htask : task = d.task := htask
  rw [htask, hover.1] at hk
  cases hk

/-- A step that was taken in sound traffic, after a given endpoint. -/
structure Taken (e : Endpoint SharedLog) (d : Deed) : Prop where
  step : ∃ now, d.call.step now d.task d.before = (d.progress, d.after)
  serves : d.call.Serves d.request
  told : d.call.Told d.before
  reader : ∃ n, d.before.ReaderAt n
  follows : e.Follows d.before

/-- All the steps that have been taken were taken in sound traffic. -/
theorem run_steps {t : Traffic} (h : t.Sound) (hd : t.deeds = []) (moves : List Move) :
    ∀ d ∈ (t.run moves).deeds, Taken t.endpoint d := by
  intro d hmem
  obtain ⟨pre, post, hsplit⟩ := List.append_of_mem hmem
  obtain ⟨first, task, now, k, -, -, hk, rfl⟩ := run_deeds hd hsplit
  have hs := run_sound h first
  exact ⟨⟨now, rfl⟩, hs.serving task k hk, hs.reads.told task k hk, hs.reads.reader,
    run_follows t first⟩

end Steps

end Traffic
end ReplicatedLog
