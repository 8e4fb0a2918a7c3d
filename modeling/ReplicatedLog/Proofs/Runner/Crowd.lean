import ReplicatedLog.Proofs.Runner.Watch

/-!
# A crowd on a channel

Any number of tasks are on one channel, of which some are requests and some are
runners.  They take their steps in any order and may be given up at any time, while the
channel is interrupted, runners are asked to stop and others use what the client is a
client of.

* `Member` is a task, with the call that it is in, if it is in one; `Member.step_call` and
  `Member.step_rest` say what a step of it does in either case;
* `Crowd` is the channel with its tasks and the steps of calls that have been taken;
  `Crowd.run` makes any moves in their order, and a move that cannot be made changes
  nothing;
* `Crowd.run_forget`: what an audited client has on account changes nothing about a
  crowd;
* `Crowd.Ordered`: every task stands in line where its call has to, and one that is in
  no call does not stand there.
-/

namespace ReplicatedLog

open Channel

/-- A task on a channel: a request in progress, or a runner with its executor. -/
inductive Member (σ ε : Type) [Client σ]
  | request (r : Request) (call : Call σ)
  | runner (r : Runner σ) (x : ε)

namespace Member

variable {σ ε : Type} [Client σ]

section Steps

/-- The call that a task is in. -/
def call? : Member σ ε → Option (Call σ)
  | .request _ call => some call
  | .runner r _ => r.phase.call?.map Prod.snd

/-- What is left of a request after a step of its call. -/
def remaining (r : Request) : Progress (Call σ) Result → Option (Member σ ε)
  | .waiting call => some (.request r call)
  | .done _ => none

variable [Executor ε]

/-- A step of a task: what is left of it, and the channel after the step. -/
def step (now : Nat) (me : TaskId) (e : Endpoint σ) : Member σ ε → Option (Member σ ε) × Endpoint σ
  | .request r call =>
      let (progress, after) := call.step now me e
      (remaining r progress, after)
  | .runner r x =>
      let after := Runner.step now me ⟨e, x, r⟩
      (some (.runner after.runner after.executor), after.endpoint)

variable {member : Member σ ε} {call : Call σ}

/-- A step of a task that is in a call is a step of the call, and what is left of the task is in
what is left of the call. -/
theorem step_call (now : Nat) (me : TaskId) (e : Endpoint σ) (h : member.call? = some call) :
    (member.step now me e).2 = (call.step now me e).2 ∧
      (∀ call', (call.step now me e).1 = .waiting call' →
        ∃ member', (member.step now me e).1 = some member' ∧ member'.call? = some call') ∧
      ∀ result, (call.step now me e).1 = .done result →
        ∀ member', (member.step now me e).1 = some member' → member'.call? = none := by
  cases member with
  | request r c =>
      cases h
      refine ⟨rfl, fun call' hw => ⟨.request r call', ?_, rfl⟩, fun result hd member' hleft => ?_⟩
      · exact congrArg (remaining r) hw
      · have hnone : remaining r (call.step now me e).1 = some member' := hleft
        rw [hd] at hnone
        cases hnone
  | runner r x =>
      obtain ⟨⟨isReplay, c⟩, hcall, hc⟩ := Option.map_eq_some_iff.1 h
      cases hc
      have hstep : Runner.step now me ⟨e, x, r⟩ = Runner.stepCall now me ⟨e, x, r⟩ isReplay c :=
        Runner.step_of_call hcall
      have hafter := Runner.stepCall_call? now me ⟨e, x, r⟩ isReplay c
      have hself : (Member.runner r x).step now me e =
          (some (.runner (Runner.stepCall now me ⟨e, x, r⟩ isReplay c).runner
            (Runner.stepCall now me ⟨e, x, r⟩ isReplay c).executor),
          (Runner.stepCall now me ⟨e, x, r⟩ isReplay c).endpoint) := by
        rw [← hstep]
        rfl
      rw [hself]
      refine ⟨rfl, fun call' hw => ⟨_, rfl, ?_⟩, fun result hd member' hleft => ?_⟩
      · have hin : (Runner.stepCall now me ⟨e, x, r⟩ isReplay c).runner.phase.call? =
            some (isReplay, call') := hafter.trans (by rw [hw])
        exact congrArg (Option.map Prod.snd) hin
      · cases hleft
        have hin : (Runner.stepCall now me ⟨e, x, r⟩ isReplay c).runner.phase.call? = none :=
          hafter.trans (by rw [hd])
        exact congrArg (Option.map Prod.snd) hin

/-- A step of a task that is in no call does nothing on the channel, and at most makes a request
to poll. -/
theorem step_rest (now : Nat) (me : TaskId) (e : Endpoint σ) (h : member.call? = none) :
    (member.step now me e).2 = e ∧
      ∃ member', (member.step now me e).1 = some member' ∧
        ∀ call', member'.call? = some call' →
          ∃ purpose timeout, call' = .entered (.use (.poll purpose timeout)) := by
  cases member with
  | request r c => cases h
  | runner r x =>
      have hcall : r.phase.call? = none := Option.map_eq_none_iff.1 h
      obtain ⟨hsame, hbegins⟩ := Runner.step_rest (s := ⟨e, x, r⟩) now me hcall
      refine ⟨hsame, _, rfl, fun call' hc => ?_⟩
      obtain ⟨⟨isReplay, c⟩, hcall', hc'⟩ := Option.map_eq_some_iff.1 hc
      cases hc'
      exact hbegins isReplay c hcall'

end Steps

section Forgetting

/-- A task of which it is forgotten that its client is audited. -/
def forget : Member (Audited σ) ε → Member σ ε
  | .request r call => .request r call.forget
  | .runner r x => .runner r.forget x

theorem call?_forget (member : Member (Audited σ) ε) :
    member.forget.call? = member.call?.map Call.forget := by
  cases member with
  | request r call => rfl
  | runner r x =>
      obtain ⟨timing, phase, tally, stopRequested, stops⟩ := r
      cases phase <;> rfl

variable [Executor ε]

/-- A step of a task on an audited client is what it is on the client itself. -/
theorem step_forget (now : Nat) (me : TaskId) (e : Endpoint (Audited σ))
    (member : Member (Audited σ) ε) :
    member.forget.step now me e.forget =
      ((member.step now me e).1.map forget, (member.step now me e).2.forget) := by
  cases member with
  | request r call =>
      have hstep := Call.step_forget now me e call
      simp only [forget, step, hstep, Call.Stepped.forget]
      cases (call.step now me e).1 <;> rfl
  | runner r x =>
      have hstep := Runner.step_forget now me ⟨e, x, r⟩
      change (some (Member.runner (Runner.step now me (Runner.State.forget ⟨e, x, r⟩)).runner
        (Runner.step now me (Runner.State.forget ⟨e, x, r⟩)).executor),
        (Runner.step now me (Runner.State.forget ⟨e, x, r⟩)).endpoint) = _
      rw [hstep]
      rfl

end Forgetting

section Lines

/-- Where a task stands in line: where its call has to, and nowhere if it is in no call or if there
is no such task. -/
def Stands (line : List TaskId) (me : TaskId) (member : Option (Member σ ε)) : Prop :=
  match member.bind Member.call? with
  | some call => call.StandsIn line me
  | none => me ∉ line

variable {line line' : List TaskId} {me other : TaskId} {member : Option (Member σ ε)}

/-- A step of another task changes nothing about the place of a task. -/
theorem Stands.lineStep (h : Stands line other member) (hl : Call.LineStep me line line')
    (hne : other ≠ me) : Stands line' other member := by
  unfold Stands at h ⊢
  split
  next call hcall =>
    rw [hcall] at h
    exact Call.StandsIn.lineStep h hl hne
  next hnone =>
    rw [hnone] at h
    exact fun hm => h ((hl.mem_iff hne).1 hm)

variable [Executor ε]

/-- A step of a task keeps it where it has to stand. -/
theorem step_stands (now : Nat) {e : Endpoint σ} {member : Member σ ε} (hn : e.channel.line.Nodup)
    (h : Stands e.channel.line me (some member)) :
    Call.LineStep me e.channel.line (member.step now me e).2.channel.line ∧
      Stands (member.step now me e).2.channel.line me (member.step now me e).1 := by
  unfold Stands at h
  rw [Option.bind_some] at h
  cases hcall : member.call? with
  | none =>
      rw [hcall] at h
      obtain ⟨hsame, member', hleft, hbegins⟩ := step_rest now me e hcall
      -- a request to poll that it may make has not joined the line yet
      rw [hsame, hleft]
      refine ⟨.stay, ?_⟩
      unfold Stands
      rw [Option.bind_some]
      split
      next call' hcall' =>
        obtain ⟨purpose, timeout, rfl⟩ := hbegins call' hcall'
        exact h
      next => exact h
  | some call =>
      rw [hcall] at h
      obtain ⟨hafter, hgoes, hends⟩ := step_call now me e hcall
      obtain ⟨hline, hstands⟩ := Call.step_lined now hn h
      rw [hafter]
      refine ⟨hline, ?_⟩
      unfold Stands
      cases hprogress : (call.step now me e).1 with
      | waiting call' =>
          obtain ⟨member', hleft, hcall'⟩ := hgoes call' hprogress
          rw [hprogress] at hstands
          rw [hleft, Option.bind_some, hcall']
          exact hstands
      | done result =>
          rw [hprogress] at hstands
          cases hleft : (member.step now me e).1 with
          | none => exact hstands
          | some member' =>
              rw [Option.bind_some, hends result hprogress member' hleft]
              exact hstands

end Lines

end Member

/-- A step that a task in a call has taken. -/
structure Crowd.Deed (σ ε : Type) [Client σ] where
  task : TaskId
  member : Member σ ε
  call : Call σ
  before : Endpoint σ
  progress : Progress (Call σ) Result
  after : Endpoint σ
  /-- What is left of the task. -/
  left : Option (Member σ ε)

/-- A channel with the tasks on it. -/
structure Crowd (σ ε : Type) [Client σ] where
  endpoint : Endpoint σ
  members : TaskId → Option (Member σ ε) := fun _ => none
  /-- The number for a new task. -/
  next : TaskId := 0
  /-- The steps of calls that have been taken, in their order. -/
  deeds : List (Crowd.Deed σ ε) := []

namespace Crowd

section Moves

/-- What can happen on a channel. -/
inductive Move (σ ε : Type)
  /-- A new task makes a request. -/
  | ask (r : Request)
  /-- A new task is a runner that is set to work. -/
  | employ (timing : Timing) (x : ε)
  /-- A task takes a step. -/
  | step (task : TaskId) (now : Nat)
  /-- A task is given up. -/
  | abandon (task : TaskId)
  | interrupt (now : Nat)
  /-- A runner is asked to stop. -/
  | stop (task : TaskId) (now : Nat)
  /-- The executor of a runner is changed from elsewhere. -/
  | influence (task : TaskId) (x : ε)
  /-- What the client is a client of is changed from elsewhere. -/
  | sway (change : σ → σ)

variable {σ ε : Type} [Client σ]

/-- A task replaced by what is left of it. -/
def put (c : Crowd σ ε) (task : TaskId) (member : Option (Member σ ε)) :
    TaskId → Option (Member σ ε) :=
  fun id => if id = task then member else c.members id

/-- Something has happened to the channel and to a task, of which this is left. -/
def replace (c : Crowd σ ε) (e : Endpoint σ) (task : TaskId) (left : Option (Member σ ε)) :
    Crowd σ ε :=
  { c with endpoint := e, members := c.put task left }

/-- A new task on the channel. -/
def join (c : Crowd σ ε) (member : Member σ ε) : Crowd σ ε :=
  { c with members := c.put c.next (some member), next := c.next + 1 }

variable [Executor ε]

/-- The step that a task in a call takes. -/
def deed (c : Crowd σ ε) (task : TaskId) (now : Nat) (member : Member σ ε) (call : Call σ) :
    Deed σ ε :=
  let (left, after) := member.step now task c.endpoint
  ⟨task, member, call, c.endpoint, (call.step now task c.endpoint).1, after, left⟩

/-- The crowd after a task has taken a step. -/
def advance (c : Crowd σ ε) (task : TaskId) (now : Nat) (member : Member σ ε) : Crowd σ ε :=
  let (left, after) := member.step now task c.endpoint
  { c.replace after task left with
    deeds := c.deeds ++ (member.call?.map (c.deed task now member)).toList }

/-- The crowd after a move. -/
def perform (c : Crowd σ ε) : Move σ ε → Crowd σ ε
  | .ask r => c.join (.request r (.entered r))
  | .employ timing x => c.join (.runner { timing } x)
  | .step task now =>
      match c.members task with
      | some member => c.advance task now member
      | none => c
  | .abandon task =>
      match c.members task with
      | some _ => c.replace (c.endpoint.leave task) task none
      | none => c
  | .interrupt now => { c with endpoint := c.endpoint.interrupt now }
  | .stop task now =>
      match c.members task with
      | some (.runner r x) =>
          c.replace (c.endpoint.interrupt now) task (some (.runner r.requestStop x))
      | _ => c
  | .influence task x =>
      match c.members task with
      | some (.runner r _) => c.replace c.endpoint task (some (.runner r x))
      | _ => c
  | .sway change =>
      { c with endpoint := { c.endpoint with client := change c.endpoint.client } }

/-- The crowd after moves. -/
def run (c : Crowd σ ε) (moves : List (Move σ ε)) : Crowd σ ε :=
  moves.foldl perform c

end Moves

section Forgetting

variable {σ ε : Type} [Client σ]

/-- A step of which it is forgotten that the client is audited. -/
def Deed.forget (d : Deed (Audited σ) ε) : Deed σ ε where
  task := d.task
  member := d.member.forget
  call := d.call.forget
  before := d.before.forget
  progress := d.progress.map Call.forget id
  after := d.after.forget
  left := d.left.map Member.forget

/-- A crowd of which it is forgotten that its client is audited. -/
def forget (c : Crowd (Audited σ) ε) : Crowd σ ε where
  endpoint := c.endpoint.forget
  members id := (c.members id).map Member.forget
  next := c.next
  deeds := c.deeds.map Deed.forget

/-- A move on a channel whose client is audited; nobody else changes the account. -/
def Move.audited : Move σ ε → Move (Audited σ) ε
  | .ask r => .ask r
  | .employ timing x => .employ timing x
  | .step task now => .step task now
  | .abandon task => .abandon task
  | .interrupt now => .interrupt now
  | .stop task now => .stop task now
  | .influence task x => .influence task x
  | .sway change => .sway fun s => { s with inner := change s.inner }

theorem put_forget (c : Crowd (Audited σ) ε) (task : TaskId)
    (member : Option (Member (Audited σ) ε)) :
    c.forget.put task (member.map Member.forget) =
      fun id => (c.put task member id).map Member.forget := by
  funext id
  unfold put
  split <;> rfl

theorem replace_forget (c : Crowd (Audited σ) ε) (e : Endpoint (Audited σ)) (task : TaskId)
    (left : Option (Member (Audited σ) ε)) :
    c.forget.replace e.forget task (left.map Member.forget) = (c.replace e task left).forget := by
  unfold replace
  rw [put_forget]
  rfl

theorem join_forget (c : Crowd (Audited σ) ε) (member : Member (Audited σ) ε) :
    c.forget.join member.forget = (c.join member).forget := by
  have hput := put_forget c c.next (some member)
  unfold join
  rw [show some member.forget = (some member).map Member.forget from rfl,
    show c.forget.next = c.next from rfl, hput]
  rfl

variable [Executor ε]

theorem advance_forget (c : Crowd (Audited σ) ε) (task : TaskId) (now : Nat)
    (member : Member (Audited σ) ε) :
    c.forget.advance task now member.forget = (c.advance task now member).forget := by
  have hstep := Member.step_forget now task c.endpoint member
  have hdeeds : member.forget.call?.map (c.forget.deed task now member.forget) =
      (member.call?.map (c.deed task now member)).map Deed.forget := by
    rw [Member.call?_forget, Option.map_map, Option.map_map]
    congr 1
    funext call
    have hcall := Call.step_forget now task c.endpoint call
    simp only [Function.comp, deed, Deed.forget]
    rw [show c.forget.endpoint = c.endpoint.forget from rfl, hstep, hcall]
    rfl
  unfold advance
  rw [hdeeds, show c.forget.endpoint = c.endpoint.forget from rfl, hstep]
  dsimp only
  rw [replace_forget]
  simp only [forget, List.map_append, Option.toList_map]

/-- A move on a channel with an audited client does what it does with the client itself. -/
theorem perform_forget (c : Crowd (Audited σ) ε) (m : Move σ ε) :
    c.forget.perform m = (c.perform m.audited).forget := by
  have hmembers : ∀ task, c.forget.members task = (c.members task).map Member.forget := fun _ => rfl
  cases m with
  | ask r => exact c.join_forget (.request r (.entered r))
  | employ timing x => exact c.join_forget (.runner { timing } x)
  | interrupt now => rfl
  | sway change => rfl
  | step task now =>
      simp only [perform, Move.audited, hmembers]
      cases c.members task with
      | none => rfl
      | some member => exact c.advance_forget task now member
  | abandon task =>
      simp only [perform, Move.audited, hmembers]
      cases c.members task with
      | none => rfl
      | some member => exact c.replace_forget (c.endpoint.leave task) task none
  | stop task now =>
      simp only [perform, Move.audited, hmembers]
      rcases c.members task with _ | ⟨r, call⟩ | ⟨r, x⟩
      · rfl
      · rfl
      · exact c.replace_forget (c.endpoint.interrupt now) task (some (.runner r.requestStop x))
  | influence task x =>
      simp only [perform, Move.audited, hmembers]
      rcases c.members task with _ | ⟨r, call⟩ | ⟨r, y⟩
      · rfl
      · rfl
      · exact c.replace_forget c.endpoint task (some (.runner r x))

/-- The account changes nothing about a crowd. -/
theorem run_forget (c : Crowd (Audited σ) ε) (moves : List (Move σ ε)) :
    c.forget.run moves = (c.run (moves.map Move.audited)).forget := by
  induction moves generalizing c with
  | nil => rfl
  | cons m moves ih =>
      rw [List.map_cons]
      change (c.forget.perform m).run moves = ((c.perform m.audited).run _).forget
      rw [perform_forget]
      exact ih _

end Forgetting

section Order

variable {σ ε : Type} [Client σ]

/-- Every task stands in line where its call has to, and nobody else stands there. -/
structure Ordered (c : Crowd σ ε) : Prop where
  nodup : c.endpoint.channel.line.Nodup
  stands : ∀ id, Member.Stands c.endpoint.channel.line id (c.members id)
  fresh : ∀ id, c.next ≤ id → c.members id = none

variable {c : Crowd σ ε} {task : TaskId} {member : Member σ ε}

/-- What holds of what is left of a task, and of all the others, holds of all tasks. -/
theorem forall_put {P : TaskId → Option (Member σ ε) → Prop} {left : Option (Member σ ε)}
    (hself : P task left) (hother : ∀ id, id ≠ task → P id (c.members id)) :
    ∀ id, P id (c.put task left id) := by
  intro id
  unfold put
  split
  next heq => exact heq ▸ hself
  next hne => exact hother id hne

/-- A new channel has nobody on it yet. -/
theorem ordered_start {e : Endpoint σ} (h : e.channel.line = []) :
    ({ endpoint := e } : Crowd σ ε).Ordered := by
  refine ⟨?_, fun id => ?_, fun _ _ => rfl⟩
  · rw [h]
    exact List.nodup_nil
  · change id ∉ e.channel.line
    rw [h]
    exact List.not_mem_nil

/-- A task that takes its place in line as it has to keeps the order. -/
theorem Ordered.replace (h : c.Ordered) (hmember : c.members task = some member) (e : Endpoint σ)
    (left : Option (Member σ ε))
    (hline : Call.LineStep task c.endpoint.channel.line e.channel.line)
    (hstands : Member.Stands e.channel.line task left) : (c.replace e task left).Ordered := by
  refine ⟨hline.nodup h.nodup,
    forall_put hstands fun id hne => (h.stands id).lineStep hline hne,
    forall_put (P := fun id member => c.next ≤ id → member = none) (fun hid => ?_)
      fun id _ => h.fresh id⟩
  rw [h.fresh task hid] at hmember
  cases hmember

/-- A new task that does not stand in line yet keeps the order. -/
theorem Ordered.join (h : c.Ordered)
    (hnew : Member.Stands c.endpoint.channel.line c.next (some member)) :
    (c.join member).Ordered := by
  refine ⟨h.nodup, forall_put hnew fun id _ => h.stands id,
    forall_put (P := fun id member => c.next < id → member = none)
      (fun hlt => absurd hlt (Nat.lt_irrefl _)) fun id _ hlt => ?_⟩
  exact h.fresh id (Nat.le_of_lt hlt)

variable [Executor ε]

/-- Every move keeps the order. -/
theorem Ordered.perform (h : c.Ordered) (m : Move σ ε) : (c.perform m).Ordered := by
  have hnew : c.next ∉ c.endpoint.channel.line := by
    have hfresh := h.stands c.next
    rw [h.fresh c.next (Nat.le_refl _)] at hfresh
    exact hfresh
  cases m with
  | ask r => exact h.join hnew
  | employ timing x => exact h.join hnew
  | interrupt now => exact ⟨h.nodup, h.stands, h.fresh⟩
  | sway change => exact ⟨h.nodup, h.stands, h.fresh⟩
  | step task now =>
      simp only [Crowd.perform]
      split
      next member hmember =>
        obtain ⟨hline, hstands⟩ := Member.step_stands now h.nodup (hmember ▸ h.stands task)
        have hreplaced := h.replace hmember _ _ hline hstands
        exact ⟨hreplaced.nodup, hreplaced.stands, hreplaced.fresh⟩
      next => exact h
  | abandon task =>
      simp only [Crowd.perform]
      split
      next member hmember =>
        exact h.replace hmember (c.endpoint.leave task) none .leave h.nodup.not_mem_erase
      next => exact h
  | stop task now =>
      simp only [Crowd.perform]
      split
      next r x hmember =>
        have hstands := h.stands task
        rw [hmember] at hstands
        exact h.replace hmember (c.endpoint.interrupt now) (some (.runner r.requestStop x)) .stay
          hstands
      next => exact h
  | influence task x =>
      simp only [Crowd.perform]
      split
      next r y hmember =>
        have hstands := h.stands task
        rw [hmember] at hstands
        exact h.replace hmember c.endpoint (some (.runner r x)) .stay hstands
      next => exact h

end Order

end Crowd

end ReplicatedLog
