import ReplicatedLog.Proofs.Runner.Crowd

/-!
# Shutting a channel down

The first shutdown of a channel shuts it for all requests that come after it, waits
for the reading handle like everybody else, and closes the two handles one after the
other, which may take any number of steps.

* `Stage` says how much of that has been done, and `Stage.Goes` how a step of a call
  takes it further: `Call.step_shuts` and `Call.step_stage`;
* `Stage.Suits`: only the task that shuts the channel down is in the calls that close
  the handles, and it is in no other call;
* `Crowd.Staged`: the channel and all of its tasks are as they have to be at a stage,
  and `Staged.perform`: every move keeps that, and takes the stage as far as its step
  does;
* `Deed.Final` is what holds of every step after the beginning of the first shutdown,
  and `Recorded` that it does;
* `Crowd.Alone`: a task has the reading handle, and nobody else makes use of it;
* `Crowd.run_shuts_down`: what comes of all that in any crowd.
-/

namespace ReplicatedLog

open Channel

/-- All that there is to do about the handles: the reading one is closed, and then the appending
one. -/
def Item.allClosings : List Item :=
  [.closing .reader, .closed .reader, .closing .writer, .closed .writer]

/-- How far a channel has been shut down. -/
inductive Stage
  /-- No shutdown has begun. -/
  | running
  /-- The task has begun to shut the channel down, and so much has been done about the handles. -/
  | shutting (task : TaskId) (done : Nat)

namespace Stage

section Stages

/-- Whether requests are refused. -/
def isShutDown : Stage → Bool
  | .running => false
  | .shutting _ _ => true

/-- What has been done about the handles, in its order. -/
def closings : Stage → List Item
  | .running => []
  | .shutting _ done => Item.allClosings.take done

/-- The task of the first shutdown. -/
def closer? : Stage → Option TaskId
  | .running => none
  | .shutting task _ => some task

theorem closings_prefix (s : Stage) : s.closings <+: Item.allClosings := by
  cases s with
  | running => exact List.nil_prefix
  | shutting task done => exact List.take_prefix done _

theorem isShutDown_of_closer? {s : Stage} {task : TaskId} (h : s.closer? = some task) :
    s.isShutDown = true := by
  cases s with
  | running => cases h
  | shutting t done => rfl

/-- At first nothing is shut down. -/
theorem eq_running {s : Stage} (h : s.isShutDown = false) : s = .running := by
  cases s with
  | running => rfl
  | shutting t done => cases h

variable {σ : Type} [Client σ]

/-- The channel is as far as that. -/
structure Describes (s : Stage) (e : Endpoint (Audited σ)) : Prop where
  isShutDown : e.channel.isShutDown = s.isShutDown
  closings : e.client.closings = s.closings

theorem Describes.interrupt {s : Stage} {e : Endpoint (Audited σ)} (h : s.Describes e) (now : Nat) :
    s.Describes (e.interrupt now) :=
  ⟨h.isShutDown, (Audited.closings_enter _ _ rfl).trans h.closings⟩

end Stages

end Stage

/-- How much is done about the handles before this one is closed. -/
def Handle.turn : Handle → Nat
  | .reader => 0
  | .writer => 2

/-- How much has been done about the handles when a call goes on that closes them. -/
def Channel.Call.done? {σ : Type} [Client σ] : Call (Audited σ) → Option Nat
  | .inLine .close => some 0
  | .closing h c => some (h.turn + if c.hasBegun then 1 else 0)
  | _ => none

namespace Stage

section Moving

variable {σ : Type} [Client σ] {s s' : Stage} {id other : TaskId} {call : Call (Audited σ)}
  {call? : Option (Call (Audited σ))}

/-- Whether a task may be in a call: the calls that close the handles belong to the task that shuts
the channel down, which is in no other call. -/
def Allows (s : Stage) (id : TaskId) (call : Call (Audited σ)) : Prop :=
  match call.done? with
  | some done => s = .shutting id done
  | none => s.closer? ≠ some id

/-- How a step of a task takes the stage further, if it is in a call. -/
inductive Goes (id : TaskId) : Option (Call (Audited σ)) → Stage → Stage → Prop
  | stay (call : Option (Call (Audited σ))) (s : Stage) : Goes id call s s
  | ask : Goes id (some (.entered .shutDown)) .running (.shutting id 0)
  | close {call : Call (Audited σ)} {done more : Nat} (hcall : call.done? = some done)
      (hle : done ≤ more) : Goes id (some call) (.shutting id done) (.shutting id more)

/-- Only a shutdown closes the handles. -/
theorem serves_of_done? {done : Nat} (h : call.done? = some done) : call.Serves .shutDown := by
  cases call with
  | inLine u =>
      cases u with
      | close => rfl
      | _ => cases h
  | closing handle c => rfl
  | _ => cases h

theorem done?_of_other (h : ¬ call.Serves .shutDown) : call.done? = none := by
  cases hdone : call.done? with
  | none => rfl
  | some done => exact absurd (serves_of_done? hdone) h

/-- What is not a shutdown is for everybody but the task that shuts the channel down. -/
theorem allows_other (h : ¬ call.Serves .shutDown) : s.Allows id call ↔ s.closer? ≠ some id := by
  rw [Allows, done?_of_other h]

/-- The first shutdown stays the first one. -/
theorem Goes.closer? (h : Goes id call? s s') (hs : s.closer? = some other) :
    s'.closer? = some other := by
  cases h with
  | stay => exact hs
  | ask => cases hs
  | close => exact hs

/-- A step of one task changes nothing about what another one may be in. -/
theorem Goes.closer?_ne (h : Goes id call? s s') (hne : other ≠ id)
    (hs : s.closer? ≠ some other) : s'.closer? ≠ some other := by
  cases h with
  | stay => exact hs
  | ask => exact fun heq => hne (Option.some.inj heq).symm
  | close => exact hs

/-- What is not a shutdown takes the stage no further. -/
theorem Goes.eq_of_other (h : Goes id (some call) s s') (hother : ¬ call.Serves .shutDown) :
    s' = s := by
  cases h with
  | stay => rfl
  | ask => exact absurd rfl hother
  | close hcall => exact absurd (serves_of_done? hcall) hother

theorem Goes.allows (h : Goes id call? s s') (hne : other ≠ id) (hs : s.Allows other call) :
    s'.Allows other call := by
  unfold Allows at hs ⊢
  split
  next done hdone =>
    rw [hdone] at hs
    subst hs
    cases h with
    | stay => rfl
    | close => exact absurd rfl hne
  next hnone =>
    rw [hnone] at hs
    exact h.closer?_ne hne hs

end Moving

end Stage

namespace Channel
namespace Call

section Refusing

variable {σ : Type} [Client σ]

/-- What a request comes to on a channel that is shut down. -/
def refusal : Request → Result
  | .use .close => .ok .done
  | _ => .error .closed

/-- Only a shutdown is not told that the channel is shut down. -/
theorem refusal_of_ne {r : Request} (h : r ≠ .shutDown) : refusal r = .error .closed := by
  cases r with
  | send i c => rfl
  | use u =>
      cases u with
      | close => exact absurd rfl h
      | endOffset => rfl
      | poll purpose timeout => rfl

/-- A channel that is shut down refuses a request at once, and neither it nor its client changes. -/
theorem enter_shut {e : Endpoint σ} (h : e.channel.isShutDown = true) (now : Nat) (me : TaskId)
    (r : Request) : (Call.entered r).step now me e = (.done (refusal r), e) := by
  simp only [step, enter, if_pos h]
  split
  · rfl
  next hother => rw [refusal_of_ne fun heq => hother heq]

end Refusing

section Steps

variable {σ : Type} [Client σ] {s : Stage} {id : TaskId} {e : Endpoint (Audited σ)}
  {call : Call (Audited σ)} {done : Nat}

/-- What is done with the first step of a closing. -/
theorem take_opening (h : Handle) (c : Audited.Operation Unit (Client.Closing σ h)) :
    Item.allClosings.take (h.turn + if c.hasBegun then 1 else 0) ++
        (c.opening fun _ => .closing h) =
      Item.allClosings.take (h.turn + 1) := by
  obtain ⟨asked, hasBegun, inner⟩ := c
  cases h <;> cases hasBegun <;> rfl

/-- A step of a closing does what comes next about the handles, and the shutdown is over when
everything has been done. -/
theorem closeHandle_closes (now : Nat) (h : Handle)
    (c : Audited.Operation Unit (Client.Closing σ h))
    (hd : (Stage.shutting id (h.turn + if c.hasBegun then 1 else 0)).Describes e) :
    ∃ more, (h.turn + if c.hasBegun then 1 else 0) ≤ more ∧
      (Stage.shutting id more).Describes (closeHandle (σ := Audited σ) now id e h c).2 ∧
      (∀ call', (closeHandle (σ := Audited σ) now id e h c).1 = .waiting call' →
        call'.done? = some more) ∧
      ∀ result, (closeHandle (σ := Audited σ) now id e h c).1 = .done result →
        result = .ok .done ∧ more = 4 := by
  have hopening : ∀ i ∈ c.opening fun _ => .closing h, i.isClosing = true := by
    unfold Audited.Operation.opening
    cases c.hasBegun <;> simp [Item.isClosing]
  have hle : (h.turn + if c.hasBegun then 1 else 0) ≤ h.turn + 1 := by
    cases c.hasBegun <;> simp
  rcases closeHandle_enters now id e h c with ⟨c', inner, hstep⟩ | ⟨inner, hstep⟩
  · rw [hstep]
    refine ⟨h.turn + 1, hle, ⟨hd.isShutDown, ?_⟩, fun call' hw => ?_, fun result hr => ?_⟩
    · rw [Audited.closings_enter_closing _ _ hopening, hd.closings]
      exact take_opening h c
    · cases hw
      rfl
    · cases hr
  · have hitems : ∀ i ∈ (c.opening fun _ => .closing h) ++ [Item.closed h],
        i.isClosing = true := by
      intro i hi
      rcases List.mem_append.1 hi with hi | hi
      · exact hopening i hi
      · rw [List.mem_singleton.1 hi]
        rfl
    have hclosings : (e.client.enter inner
        ((c.opening fun _ => .closing h) ++ [.closed h])).closings =
          Item.allClosings.take (h.turn + 2) := by
      rw [Audited.closings_enter_closing _ _ hitems, hd.closings, Stage.closings,
        ← List.append_assoc, take_opening]
      cases h <;> rfl
    rw [hstep]
    refine ⟨h.turn + 2, Nat.le_succ_of_le hle, ?_⟩
    cases h with
    | reader =>
        refine ⟨⟨hd.isShutDown, hclosings⟩, fun call' hw => ?_, fun result hr => ?_⟩
        · cases hw
          rfl
        · cases hr
    | writer =>
        refine ⟨⟨hd.isShutDown, hclosings⟩, fun call' hw => ?_, fun result hr => ?_⟩
        · cases hw
        · cases hr
          exact ⟨rfl, rfl⟩

/-- A step of a shutdown that is to close a handle waits for its turn or does what comes next, and
the shutdown is over when everything has been done. -/
theorem step_shuts (now : Nat) (hcall : call.done? = some done)
    (hd : (Stage.shutting id done).Describes e) :
    ∃ more, done ≤ more ∧ (Stage.shutting id more).Describes (call.step now id e).2 ∧
      (∀ call', (call.step now id e).1 = .waiting call' → call'.done? = some more) ∧
      ∀ result, (call.step now id e).1 = .done result → result = .ok .done ∧ more = 4 := by
  cases call with
  | inLine u =>
      cases u with
      | close =>
          cases hcall
          by_cases hhead : e.channel.hasReader id = true
          · simp only [step, if_pos hhead]
            exact closeHandle_closes now .reader ⟨(), false, Client.startClosing .reader⟩ hd
          · simp only [step, if_neg hhead]
            refine ⟨0, Nat.le_refl 0, hd, fun call' hw => ?_, fun result hr => ?_⟩
            · cases hw
              rfl
            · cases hr
      | _ => cases hcall
  | closing h c =>
      cases hcall
      exact closeHandle_closes now h c hd
  | _ => cases hcall

/-- A step of a call takes the stage as far as what it does about the handles or the shutdown that
it begins, and leaves its task in what it may be in then. -/
theorem step_stage (now : Nat) (h : s.Describes e) (ha : s.Allows id call) :
    ∃ s', Stage.Goes id (some call) s s' ∧ s'.Describes (call.step now id e).2 ∧
      ∀ call', (call.step now id e).1 = .waiting call' → s'.Allows id call' := by
  -- a shutdown begins, or goes on with the handles; nothing else takes the stage further
  cases hcall : call.done? with
  | some done =>
      have hs : s = .shutting id done := by
        rw [Stage.Allows, hcall] at ha
        exact ha
      subst hs
      obtain ⟨more, hle, hafter, hwaits, -⟩ := step_shuts now hcall h
      refine ⟨_, .close hcall hle, hafter, fun call' hw => ?_⟩
      rw [Stage.Allows, hwaits call' hw]
  | none =>
      by_cases hshut : call.Serves .shutDown
      · cases call with
        | sent w interrupts =>
            obtain ⟨i, c, hsend⟩ := hshut
            cases hsend
        | entered r =>
            cases hshut
            by_cases hdown : e.channel.isShutDown = true
            · have hstep := enter_shut hdown now id .shutDown
              refine ⟨s, .stay _ _, hstep ▸ h, fun call' hw => ?_⟩
              rw [hstep] at hw
              cases hw
            · have hrunning : s = .running :=
                Stage.eq_running (h.isShutDown.symm.trans (Bool.not_eq_true _ ▸ hdown))
              subst hrunning
              refine ⟨_, .ask, ?_, fun call' hw => ?_⟩
              · simp only [step, enter, if_neg hdown, Request.shutDown]
                exact ⟨rfl, h.closings⟩
              · simp only [step, enter, if_neg hdown, Request.shutDown] at hw
                cases hw
                rfl
        | inLine u =>
            cases hshut
            cases hcall
        | polling purpose timeout restored p => cases hshut
        | asking q => cases hshut
        | closing handle c => cases hcall
      · obtain ⟨hclosings, hsame⟩ := step_other now id e hshut
        refine ⟨s, .stay _ _, ⟨hsame.trans h.isShutDown, hclosings.trans h.closings⟩, ?_⟩
        intro call' hw
        have hother : ¬ call'.Serves .shutDown := step_serves_other hshut hw
        exact (Stage.allows_other hother).2 ((Stage.allows_other hshut).1 ha)

end Steps

end Call
end Channel

/-- A runner whose replay or poll finds the channel shut down ends with its tally. -/
theorem Runner.stepCall_closed {σ ε : Type} [Client σ] {s : Runner.State σ ε} {now : Nat}
    {me : TaskId} {call : Call σ} (isReplay : Bool)
    (h : (call.step now me s.endpoint).1 = .done (.error .closed)) :
    (Runner.stepCall now me s isReplay call).runner =
        { s.runner with phase := .finished (.ok s.runner.tally) } ∧
      (Runner.stepCall now me s isReplay call).executor = s.executor := by
  unfold Runner.stepCall
  dsimp only
  rw [h]
  exact ⟨rfl, rfl⟩

/-- What a task may be on a channel: a shutdown is a request that has not begun, or the one that
the stage tells; a runner never is one. -/
def Stage.Suits {σ ε : Type} [Client σ] (s : Stage) (id : TaskId) :
    Option (Member (Audited σ) ε) → Prop
  | none => True
  | some (.request _ call) => s.Allows id call
  | some (.runner r _) =>
      s.closer? ≠ some id ∧
        ∀ isReplay call, r.phase.call? = some (isReplay, call) → ¬ call.Serves .shutDown

namespace Member

section Steps

variable {σ ε : Type} [Client σ] {s s' : Stage} {id other : TaskId}

theorem suits_allows {member : Member (Audited σ) ε} {call : Call (Audited σ)}
    (h : s.Suits id (some member)) (hcall : member.call? = some call) : s.Allows id call := by
  cases member with
  | request r c =>
      cases hcall
      exact h
  | runner r x =>
      obtain ⟨⟨isReplay, c⟩, hin, hc⟩ := Option.map_eq_some_iff.1 hcall
      cases hc
      exact (Stage.allows_other (h.2 isReplay c hin)).2 h.1

/-- A step of one task changes nothing about what another one may be. -/
theorem suits_goes {call? : Option (Call (Audited σ))} (hg : Stage.Goes id call? s s')
    (hne : other ≠ id) {member : Option (Member (Audited σ) ε)} (h : s.Suits other member) :
    s'.Suits other member := by
  match member with
  | none => trivial
  | some (.request r call) => exact hg.allows hne h
  | some (.runner r x) => exact ⟨hg.closer?_ne hne h.1, h.2⟩

variable [Executor ε] {e : Endpoint (Audited σ)} {member : Member (Audited σ) ε}

/-- A step of a task takes the stage as far as the step of its call does, and leaves what the task
may be then. -/
theorem step_stage (now : Nat) (h : s.Describes e) (hsuits : s.Suits id (some member)) :
    ∃ s', Stage.Goes id member.call? s s' ∧ s'.Describes (member.step now id e).2 ∧
      s'.Suits id (member.step now id e).1 := by
  cases member with
  | request r call =>
      obtain ⟨s', hgoes, hdescribes, hallows⟩ := Call.step_stage now h hsuits
      refine ⟨s', hgoes, hdescribes, ?_⟩
      simp only [step]
      cases hprogress : (call.step now id e).1 with
      | waiting call' => exact hallows call' hprogress
      | done result => trivial
  | runner r x =>
      obtain ⟨hcloser, hmodest⟩ := hsuits
      cases hcall : r.phase.call? with
      | none =>
          obtain ⟨hsame, hbegins⟩ := Runner.step_rest (s := ⟨e, x, r⟩) now id hcall
          refine ⟨s, .stay _ _, ?_, hcloser, fun isReplay call hin hshut => ?_⟩
          · simp only [step]
            rw [hsame]
            exact h
          · obtain ⟨purpose, timeout, rfl⟩ := hbegins isReplay call hin
            cases hshut
      | some current =>
          obtain ⟨isReplay, call⟩ := current
          have hother := hmodest isReplay call hcall
          obtain ⟨s', hgoes, hdescribes, -⟩ :=
            Call.step_stage now h ((Stage.allows_other hother).2 hcloser)
          obtain rfl : s' = s := hgoes.eq_of_other hother
          have hstep :
              Runner.step now id ⟨e, x, r⟩ = Runner.stepCall now id ⟨e, x, r⟩ isReplay call :=
            Runner.step_of_call hcall
          refine ⟨s', .stay _ _, ?_, hcloser, fun isReplay' call' hin => ?_⟩
          · simp only [step]
            rw [hstep]
            exact hdescribes
          · rw [hstep, Runner.stepCall_call?] at hin
            split at hin
            next c hw =>
              cases hin
              exact Call.step_serves_other hother hw
            next => cases hin

end Steps

end Member

namespace Crowd

variable {σ ε : Type} [Client σ]

section Staging

/-- The channel and all of its tasks are as they have to be at a stage. -/
structure Staged (c : Crowd (Audited σ) ε) (s : Stage) : Prop where
  describes : s.Describes c.endpoint
  suits : ∀ id, s.Suits id (c.members id)
  known : ∀ task, s.closer? = some task → task < c.next

variable {c : Crowd (Audited σ) ε} {s : Stage}

/-- A new task that suits a stage which is not its own leaves the channel at it. -/
theorem Staged.join (h : c.Staged s) {member : Member (Audited σ) ε}
    (hnew : s.closer? ≠ some c.next → s.Suits c.next (some member)) : (c.join member).Staged s := by
  have hother : s.closer? ≠ some c.next := fun heq => Nat.lt_irrefl _ (h.known c.next heq)
  exact ⟨h.describes, forall_put (P := s.Suits) (hnew hother) fun id _ => h.suits id,
    fun task ht => Nat.lt_succ_of_lt (h.known task ht)⟩

/-- A task that becomes another one which suits the stage as well leaves the channel at it. -/
theorem Staged.replace (h : c.Staged s) {e : Endpoint (Audited σ)} (hd : s.Describes e)
    (task : TaskId) (member : Option (Member (Audited σ) ε)) (hmember : s.Suits task member) :
    (c.replace e task member).Staged s :=
  ⟨hd, forall_put (P := s.Suits) hmember fun id _ => h.suits id, h.known⟩

variable [Executor ε]

/-- A step of a task takes the stage as far as the step of its call does. -/
theorem Staged.advance (h : c.Staged s) (ho : c.Ordered) {task : TaskId}
    {member : Member (Audited σ) ε} (hmember : c.members task = some member) (now : Nat) :
    ∃ s', (c.advance task now member).Staged s' ∧ Stage.Goes task member.call? s s' := by
  obtain ⟨s', hgoes, hdescribes, hsuits⟩ :=
    Member.step_stage now h.describes (hmember ▸ h.suits task)
  have hlt : task < c.next := Nat.lt_of_not_le fun hle => by
    rw [ho.fresh task hle] at hmember
    cases hmember
  have hothers : ∀ id, id ≠ task → s'.Suits id (c.members id) :=
    fun id hne => Member.suits_goes hgoes hne (h.suits id)
  refine ⟨s', ⟨hdescribes, forall_put (P := s'.Suits) hsuits hothers, fun t ht => ?_⟩, hgoes⟩
  by_cases heq : s.closer? = some t
  · exact h.known t heq
  · by_cases hne : t = task
    · exact hne ▸ hlt
    · exact absurd ht (hgoes.closer?_ne hne heq)

/-- Every move takes the stage as far as its step does, if it is one of a task that is in a call. -/
theorem Staged.perform (h : c.Staged s) (ho : c.Ordered) (m : Move σ ε) :
    ∃ s', (c.perform m.audited).Staged s' ∧
      ((s' = s ∧ (c.perform m.audited).deeds = c.deeds) ∨
        ∃ task now member call, m = .step task now ∧ c.members task = some member ∧
          member.call? = some call ∧ Stage.Goes task (some call) s s' ∧
          c.perform m.audited = c.advance task now member) := by
  cases m with
  | ask r => exact ⟨s, h.join id, Or.inl ⟨rfl, rfl⟩⟩
  | employ timing x =>
      exact ⟨s, h.join fun hne => ⟨hne, fun _ _ hin => by cases hin⟩, Or.inl ⟨rfl, rfl⟩⟩
  | interrupt now =>
      exact ⟨s, ⟨h.describes.interrupt now, h.suits, h.known⟩, Or.inl ⟨rfl, rfl⟩⟩
  | sway change =>
      exact ⟨s, ⟨⟨h.describes.isShutDown, h.describes.closings⟩, h.suits, h.known⟩,
        Or.inl ⟨rfl, rfl⟩⟩
  | abandon task =>
      simp only [Crowd.perform, Move.audited]
      split
      next member hmember =>
        have hleft : s.Describes (c.endpoint.leave task) :=
          ⟨h.describes.isShutDown, h.describes.closings⟩
        exact ⟨s, h.replace hleft task none trivial, Or.inl ⟨rfl, rfl⟩⟩
      next => exact ⟨s, h, Or.inl ⟨rfl, rfl⟩⟩
  | stop task now =>
      simp only [Crowd.perform, Move.audited]
      split
      next r x hmember =>
        have hsuits := h.suits task
        rw [hmember] at hsuits
        exact ⟨s, h.replace (h.describes.interrupt now) task (some (.runner r.requestStop x))
          hsuits, Or.inl ⟨rfl, rfl⟩⟩
      next => exact ⟨s, h, Or.inl ⟨rfl, rfl⟩⟩
  | influence task x =>
      simp only [Crowd.perform, Move.audited]
      split
      next r y hmember =>
        have hsuits := h.suits task
        rw [hmember] at hsuits
        exact ⟨s, h.replace h.describes task (some (.runner r x)) hsuits, Or.inl ⟨rfl, rfl⟩⟩
      next => exact ⟨s, h, Or.inl ⟨rfl, rfl⟩⟩
  | step task now =>
      cases hmember : c.members task with
      | none =>
          have hsame : c.perform (Move.audited (.step task now)) = c := by
            simp only [Crowd.perform, Move.audited, hmember]
          rw [hsame]
          exact ⟨s, h, Or.inl ⟨rfl, rfl⟩⟩
      | some member =>
          have hstep : c.perform (Move.audited (.step task now)) = c.advance task now member := by
            simp only [Crowd.perform, Move.audited, hmember]
          obtain ⟨s', hstaged, hgoes⟩ := h.advance ho hmember now
          rw [hstep]
          refine ⟨s', hstaged, ?_⟩
          cases hcall : member.call? with
          | none =>
              rw [hcall] at hgoes
              cases hgoes
              refine Or.inl ⟨rfl, ?_⟩
              simp [Crowd.advance, hcall]
          | some call =>
              rw [hcall] at hgoes
              exact Or.inr ⟨task, now, member, call, rfl, hmember, hcall, hgoes, rfl⟩

end Staging

section Records

/-- A step that begins a shutdown. -/
def Deed.Begins (d : Deed σ ε) : Prop :=
  d.call = .entered .shutDown

/-- What holds of a step after the first shutdown has begun, which is one of the task `first`. -/
structure Deed.Final (d : Deed (Audited σ) ε) (first : TaskId) : Prop where
  /-- The first shutdown is over when both handles have been closed. -/
  closes : d.task = first → ∀ result, d.progress = .done result →
    result = .ok .done ∧ d.after.client.closings = Item.allClosings
  /-- A request that begins is refused at once, and neither the channel nor its client changes. -/
  refuses : ∀ r, d.call = .entered r →
    d.progress = .done (Call.refusal r) ∧ d.after = d.before
  /-- A runner that begins to replay or to poll ends with its tally. -/
  ends : ∀ r, d.call = .entered r → ∀ runner x, d.member = .runner runner x →
    d.left = some (.runner { runner with phase := .finished (.ok runner.tally) } x)

/-- What has been done on a channel that is at a stage: there was no shutdown, or the first one to
begin is the one that the stage tells, and since then everything was as it has to be. -/
structure Recorded (deeds : List (Deed (Audited σ) ε)) (s : Stage) : Prop where
  running : (∀ d ∈ deeds, ¬ d.Begins) → s = .running
  first : ∀ pre d post, deeds = pre ++ d :: post → (∀ d' ∈ pre, ¬ d'.Begins) → d.Begins →
    s.closer? = some d.task ∧ (∀ result, d.progress ≠ .done result) ∧
      ∀ d' ∈ post, d'.Final d.task

variable {c : Crowd (Audited σ) ε} {s s' : Stage} {task : TaskId} {now : Nat}
  {member : Member (Audited σ) ε} {call : Call (Audited σ)}

/-- The task of the first shutdown returns when it has closed both handles. -/
theorem Staged.closes (h : c.Staged s) (hmember : c.members task = some member)
    (hcall : member.call? = some call) (hs : s.closer? = some task) {result : Result}
    (hdone : (call.step now task c.endpoint).1 = .done result) :
    result = .ok .done ∧
      (call.step now task c.endpoint).2.client.closings = Item.allClosings := by
  have hallows : s.Allows task call := Member.suits_allows (hmember ▸ h.suits task) hcall
  cases hhandles : call.done? with
  | none =>
      rw [Stage.Allows, hhandles] at hallows
      exact absurd hs hallows
  | some done =>
      rw [Stage.Allows, hhandles] at hallows
      subst hallows
      obtain ⟨more, -, hafter, -, hover⟩ := Call.step_shuts now hhandles h.describes
      obtain ⟨rfl, rfl⟩ := hover result hdone
      exact ⟨rfl, hafter.closings⟩

/-- The first shutdown to begin shuts the channel down, and is not over at once. -/
theorem Staged.begins (h : c.Staged .running) (now : Nat) (task : TaskId) :
    ((Call.entered .shutDown).step now task c.endpoint).2.channel.isShutDown = true ∧
      ∀ result, ((Call.entered .shutDown).step now task c.endpoint).1 ≠ .done result := by
  have hopen : ¬ c.endpoint.channel.isShutDown = true := by
    rw [h.describes.isShutDown]
    exact Bool.false_ne_true
  simp only [Call.step, Call.enter, if_neg hopen, Request.shutDown]
  refine ⟨rfl, fun result hdone => ?_⟩
  cases hdone

/-- A step of a task keeps the record. -/
theorem Recorded.snoc {deeds : List (Deed (Audited σ) ε)} (h : Recorded deeds s)
    {d : Deed (Audited σ) ε} (hgoes : Stage.Goes d.task (some d.call) s s')
    (hbegins : d.Begins → s = .running →
      s'.closer? = some d.task ∧ ∀ result, d.progress ≠ .done result)
    (hfinal : ∀ first, s.closer? = some first → d.Final first) : Recorded (deeds ++ [d]) s' := by
  refine ⟨fun hnone => ?_, fun pre d' post hsplit hpre hd' => ?_⟩
  · have hrunning := h.running fun d' hd' => hnone d' (List.mem_append_left _ hd')
    subst hrunning
    generalize hcall : some d.call = call? at hgoes
    cases hgoes with
    | stay => rfl
    | ask =>
        exact absurd (Option.some.inj hcall) (hnone d (List.mem_append_right _ List.mem_cons_self))
  -- the first shutdown has begun with this step, or with one before it
  · rcases Channel.split_concat hsplit with ⟨rfl, hdeeds, rfl⟩ | ⟨post', rfl, hdeeds⟩
    · obtain ⟨hcloser, hwaits⟩ := hbegins hd' (h.running (hdeeds ▸ hpre))
      exact ⟨hcloser, hwaits, by simp⟩
    · obtain ⟨hcloser, hwaits, hpost⟩ := h.first pre d' post' hdeeds hpre hd'
      refine ⟨hgoes.closer? hcloser, hwaits, fun d'' hmem => ?_⟩
      rcases List.mem_append.1 hmem with hmem | hmem
      · exact hpost d'' hmem
      · rw [List.mem_singleton.1 hmem]
        exact hfinal _ hcloser

variable [Executor ε]

theorem deeds_advance {c : Crowd σ ε} {member : Member σ ε} {call : Call σ}
    (hcall : member.call? = some call) (task : TaskId) (now : Nat) :
    (c.advance task now member).deeds = c.deeds ++ [c.deed task now member call] := by
  simp [advance, hcall]

theorem deed_after {c : Crowd σ ε} {member : Member σ ε} {call : Call σ}
    (hcall : member.call? = some call) (task : TaskId) (now : Nat) :
    (c.deed task now member call).after = (call.step now task c.endpoint).2 :=
  (Member.step_call now task c.endpoint hcall).1

/-- After the first shutdown has begun, every step is as it has to be. -/
theorem Staged.final (h : c.Staged s) (hmember : c.members task = some member)
    (hcall : member.call? = some call) {first : TaskId} (hs : s.closer? = some first) (now : Nat) :
    (c.deed task now member call).Final first := by
  have hafter := deed_after (c := c) hcall task now
  have hdown : c.endpoint.channel.isShutDown = true :=
    h.describes.isShutDown.trans (Stage.isShutDown_of_closer? hs)
  refine ⟨?_, ?_, ?_⟩
  · intro hfirst result hdone
    rw [hafter]
    have hown : task = first := hfirst
    subst hown
    exact h.closes hmember hcall hs hdone
  · intro r hentered
    have hcase : call = .entered r := hentered
    subst hcase
    rw [hafter]
    have hrefused := Call.enter_shut hdown now task r
    exact ⟨congrArg Prod.fst hrefused, congrArg Prod.snd hrefused⟩
  · intro r hentered runner x hrunner
    have hcase : call = .entered r := hentered
    have hself : member = .runner runner x := hrunner
    subst hcase hself
    obtain ⟨⟨isReplay, current⟩, hin, hc⟩ := Option.map_eq_some_iff.1 hcall
    cases hc
    have hsuits : s.Suits task (some (.runner runner x)) := hmember ▸ h.suits task
    have hother : r ≠ .shutDown := hsuits.2 isReplay _ hin
    have hclosed : ((Call.entered r).step now task c.endpoint).1 = .done (.error .closed) := by
      rw [Call.enter_shut hdown, Call.refusal_of_ne hother]
    obtain ⟨hrunner, hexecutor⟩ :=
      Runner.stepCall_closed (s := ⟨c.endpoint, x, runner⟩) isReplay hclosed
    change some (Member.runner (Runner.step now task ⟨c.endpoint, x, runner⟩).runner
      (Runner.step now task ⟨c.endpoint, x, runner⟩).executor) = _
    rw [Runner.step_of_call hin, hrunner, hexecutor]

/-- A crowd in order, at a stage that its channel, its tasks and its record agree on. -/
structure Tracked (c : Crowd (Audited σ) ε) (s : Stage) : Prop extends Staged c s where
  ordered : c.Ordered
  recorded : Recorded c.deeds s

/-- Every move keeps a crowd at a stage. -/
theorem Tracked.perform (h : c.Tracked s) (m : Move σ ε) :
    ∃ s', (c.perform m.audited).Tracked s' := by
  obtain ⟨s', hstaged, hcase⟩ := h.toStaged.perform h.ordered m
  refine ⟨s', hstaged, h.ordered.perform _, ?_⟩
  rcases hcase with ⟨rfl, hsame⟩ | ⟨task, now, member, call, -, hmember, hcall, hgoes, hstep⟩
  · rw [hsame]
    exact h.recorded
  · rw [hstep, deeds_advance hcall]
    refine h.recorded.snoc hgoes (fun hbegins hrunning => ?_) fun first hfirst =>
      h.final hmember hcall hfirst now
    have hentered : call = .entered .shutDown := hbegins
    subst hentered hrunning
    obtain ⟨hdown, hwaits⟩ := h.begins now task
    refine ⟨?_, hwaits⟩
    have hafter : s'.isShutDown = true := by
      rw [← hstaged.describes.isShutDown, hstep]
      exact (congrArg (·.channel.isShutDown) (deed_after hcall task now)).trans hdown
    cases hgoes with
    | stay => cases hafter
    | ask => rfl

end Records

section Promises

/-- The call that a task is in. -/
def callOf (c : Crowd σ ε) (task : TaskId) : Option (Call σ) :=
  (c.members task).bind Member.call?

/-- The task has the reading handle, and nobody else makes use of it. -/
def Alone (c : Crowd σ ε) (task : TaskId) : Prop :=
  c.endpoint.channel.hasReader task = true ∧
    ∀ other call, c.callOf other = some call → call.UsesReader → other = task

theorem Ordered.standsIn {c : Crowd σ ε} (h : c.Ordered) {task : TaskId} {call : Call σ}
    (hcall : c.callOf task = some call) : call.StandsIn c.endpoint.channel.line task := by
  have hstands := h.stands task
  unfold Member.Stands at hstands
  rw [show (c.members task).bind Member.call? = _ from hcall] at hstands
  exact hstands

/-- Whoever has the reading handle is the only one to make use of it. -/
theorem Ordered.alone_of_hasReader {c : Crowd σ ε} (h : c.Ordered) {task : TaskId}
    (hhead : c.endpoint.channel.hasReader task = true) : c.Alone task := by
  refine ⟨hhead, fun other call hcall huses => ?_⟩
  have hfront : c.endpoint.channel.line.head? = some task := by
    simpa [hasReader] using hhead
  exact Option.some.inj ((huses.head? (h.standsIn hcall)).symm.trans hfront)

/-- Whoever makes use of the reading handle has it for itself. -/
theorem Ordered.alone {c : Crowd σ ε} (h : c.Ordered) {task : TaskId} {call : Call σ}
    (hcall : c.callOf task = some call) (huses : call.UsesReader) : c.Alone task := by
  have hfront := huses.head? (h.standsIn hcall)
  exact h.alone_of_hasReader (by simp [hasReader, hfront])

/-- A new channel has not been shut down, and nothing has been closed. -/
theorem tracked_start {now : Nat} {client client' : σ} {topic : String} {e : Endpoint σ}
    (h : Endpoint.make now client topic = (.ok e, client')) :
    Tracked ({ endpoint := e.audited } : Crowd (Audited σ) ε) .running := by
  have hchannel : e.channel = { partition := ⟨topic, commandPartition⟩ } := by
    unfold Endpoint.make at h
    dsimp only at h
    split at h
    · cases h
    · cases h
      rfl
  refine ⟨⟨⟨?_, rfl⟩, fun _ => trivial, fun _ ht => by cases ht⟩, ordered_start ?_,
    fun _ => rfl, ?_⟩
  · exact congrArg Channel.isShutDown hchannel
  · exact congrArg Channel.line hchannel
  · intro pre d post hsplit
    simp at hsplit

variable [Executor ε]

/-- Any moves keep a crowd at a stage. -/
theorem run_tracked {c : Crowd (Audited σ) ε} {s : Stage} (h : c.Tracked s)
    (moves : List (Move σ ε)) : ∃ s', (c.run (moves.map Move.audited)).Tracked s' := by
  induction moves generalizing c s with
  | nil => exact ⟨s, h⟩
  | cons m moves ih =>
      obtain ⟨s', hnext⟩ := h.perform m
      exact ih hnext

/-- A call that has not closed the reading handle yet is about to do so. -/
theorem closesReader_of_done? {call : Call (Audited σ)} {done : Nat} (h : call.done? = some done)
    (hlt : done < 2) : call.ClosesReader := by
  cases call with
  | inLine u =>
      cases u with
      | close => trivial
      | _ => cases h
  | closing handle c =>
      cases handle with
      | reader => trivial
      | writer =>
          cases h
          exact absurd hlt (Nat.not_lt.2 (Nat.le_add_right 2 _))
  | _ => cases h

/-- The closing of the reading handle begins and ends with steps of a shutdown that has the handle
for itself. -/
theorem Tracked.closes_reader {c : Crowd (Audited σ) ε} {s : Stage} (h : c.Tracked s)
    {m : Move σ ε} {item : Item} (hitem : item ∈ [Item.closing .reader, .closed .reader])
    (hbefore : item ∉ c.endpoint.client.closings)
    (hafter : item ∈ (c.perform m.audited).endpoint.client.closings) :
    ∃ task now call, m = .step task now ∧ c.callOf task = some call ∧ call.ClosesReader ∧
      c.Alone task := by
  obtain ⟨s', hstaged, hcase⟩ := h.toStaged.perform h.ordered m
  rcases hcase with ⟨rfl, -⟩ | ⟨task, now, member, call, rfl, hmember, hcall, hgoes, hstep⟩
  · rw [hstaged.describes.closings, ← h.describes.closings] at hafter
    exact absurd hafter hbefore
  · have hown : c.callOf task = some call := by
      rw [callOf, hmember]
      exact hcall
    have hafter' := hafter
    rw [hstaged.describes.closings] at hafter'
    cases hgoes with
    | stay =>
        rw [← h.describes.closings] at hafter'
        exact absurd hafter' hbefore
    | ask => cases hafter'
    | @close _ done more hdone hle =>
        have hlt : done < 2 := by
          by_contra hge
          refine hbefore (h.describes.closings ▸ ?_)
          exact (List.take_prefix_take_left (Nat.not_lt.1 hge)).subset hitem
        have hcloses := closesReader_of_done? hdone hlt
        refine ⟨task, now, call, rfl, hown, hcloses, ?_⟩
        rcases hcloses.step_eq now (h.ordered.standsIn hown) with ⟨hhead, -⟩ | hwaits
        · exact h.ordered.alone_of_hasReader hhead
        · -- without the reading handle its step changes nothing
          have hsame : (c.perform (Move.audited (.step task now))).endpoint = c.endpoint := by
            rw [hstep]
            exact (deed_after hcall task now).trans (congrArg Prod.snd hwaits)
          rw [hsame] at hafter
          exact absurd hafter hbefore

/-- Whatever a client is and whatever any number of requests and runners do on a channel:

* the reading handle and then the appending one is closed, each once at the most;
* the closing of the reading handle begins and ends with steps of a shutdown that has the handle
  for itself, and whoever polls, replays, asks for the end or closes it has it for itself as well;
* the first shutdown is over when both handles have been closed;
* a request that begins after it is refused without anything being asked of the client, which ends
  a runner with its tally. -/
theorem run_shuts_down {now : Nat} {client client' : σ} {topic : String} {e : Endpoint σ}
    (h : Endpoint.make now client topic = (.ok e, client')) (moves : List (Move σ ε))
    (c : Crowd (Audited σ) ε)
    (hc : c = run { endpoint := e.audited } (moves.map Move.audited)) :
    run { endpoint := e } moves = c.forget ∧
      c.endpoint.client.closings <+:
        [.closing .reader, .closed .reader, .closing .writer, .closed .writer] ∧
      (∀ (m : Move σ ε) (item : Item), item ∈ [Item.closing .reader, .closed .reader] →
        item ∉ c.endpoint.client.closings →
        item ∈ (c.perform m.audited).endpoint.client.closings →
        ∃ task now call, m = .step task now ∧ c.callOf task = some call ∧ call.ClosesReader ∧
          c.Alone task) ∧
      (∀ task call, c.callOf task = some call → call.UsesReader → c.Alone task) ∧
      ∀ pre d post, c.deeds = pre ++ d :: post → (∀ d' ∈ pre, ¬ d'.Begins) → d.Begins →
        (∀ result, d.progress ≠ .done result) ∧ ∀ d' ∈ post, d'.Final d.task := by
  subst hc
  obtain ⟨s, htracked⟩ := run_tracked (tracked_start (ε := ε) h) moves
  refine ⟨run_forget { endpoint := e.audited } moves, ?_, ?_, ?_, ?_⟩
  · rw [htracked.describes.closings]
    exact s.closings_prefix
  · exact fun m item => htracked.closes_reader
  · exact fun task call => htracked.ordered.alone
  · intro pre d post hsplit hpre hd
    exact (htracked.recorded.first pre d post hsplit hpre hd).2

/-- A poll has the reading handle when the channel is shut down; then a send and a runner come, and
the poll is interrupted. -/
def shutDownMoves : List (Move SharedLog Engine) :=
  [.ask (.poll 1000), .step 0 0, .step 0 0, .ask .shutDown, .step 1 0, .step 0 0,
    .ask (.send ⟨.table, "orders", .create, Runner.isEntity_orders⟩ { statement := "CREATE" }),
    .step 2 0,
    .employ {} {}, .step 3 0, .step 3 0, .step 1 0, .interrupt 0, .step 0 0, .step 1 0, .step 1 0]

/-- The crowd of the sample. -/
def shutDownSample : Crowd (Audited SharedLog) Engine :=
  run { endpoint := (Endpoint.opened {} .json "commands").audited }
    (shutDownMoves.map Move.audited)

/-- In the sample the shutdown waits for the poll and then closes the handles, while the send and
the runner are refused. -/
theorem run_shuts_down_sample :
    ∃ pre d post, shutDownSample.deeds = pre ++ d :: post ∧ d.task = 1 ∧
      (∀ d' ∈ post, d'.Final 1) ∧ post.map (·.task) = [0, 2, 3, 1, 0, 1, 1] ∧
      shutDownSample.endpoint.client.account =
        [.pollBegun 1000, .woken, .pollEnded (.error .wakeup), .closing .reader, .closed .reader,
          .closing .writer, .closed .writer] ∧
      ∃ r x, shutDownSample.members 3 = some (.runner r x) ∧ r.result? = some (.ok {}) := by
  have hall := run_shuts_down (Endpoint.make_opened 0 {} .json "commands") shutDownMoves
    shutDownSample rfl
  obtain ⟨first, second, d, post, hsplit, hfirst, hsecond, hd, hself, hpost⟩ :
      ∃ first second d post, shutDownSample.deeds = [first, second] ++ d :: post ∧
        first.call = .entered (.poll 1000) ∧ second.call = .inLine (.poll .batch 1000) ∧
        d.Begins ∧ d.task = 1 ∧ post.map (·.task) = [0, 2, 3, 1, 0, 1, 1] :=
    ⟨_, _, _, _, rfl, rfl, rfl, rfl, rfl, rfl⟩
  refine ⟨[first, second], d, post, hsplit, hself, ?_, hpost, rfl, _, _, rfl, rfl⟩
  refine hself ▸ (hall.2.2.2.2 [first, second] d post hsplit ?_ hd).2
  intro d' hd' hbegins
  have hcall : d'.call = .entered .shutDown := hbegins
  simp only [List.mem_cons, List.not_mem_nil, or_false] at hd'
  rcases hd' with rfl | rfl
  · rw [hfirst] at hcall
    cases hcall
  · rw [hsecond] at hcall
    cases hcall

/-- A log on which every call has to be waited for once. -/
inductive Pausing
  | here

/-- What a call on it leaves: it has been waited for, or it has not. -/
def Pausing.answer {ρ : Type} (s : Pausing) (hasWaited : Bool) (result : ρ) :
    Progress Bool ρ × Pausing :=
  (if hasWaited then .done result else .waiting true, s)

instance : Client Pausing where
  Wait := Unit
  Poll := Bool
  Query := Bool
  Closing _ := Bool
  send _ s _ _ _ := ((), s)
  outcome _ _ _ := none
  outcomeDue _ := none
  assign _ s _ := (.ok (), s)
  seekToBeginning _ s _ := (.ok (), s)
  startPoll _ := false
  stepPoll _ s p := s.answer p (.ok .empty)
  pollReady _ _ _ := true
  pollDue _ := none
  startQuery _ := false
  stepQuery _ s q := s.answer q (.ok ∅)
  queryReady _ _ _ := true
  queryDue _ := none
  wake _ s := s
  startClosing _ := false
  stepClosing _ _ s c := s.answer c ()
  closingReady _ _ _ _ := true
  closingDue _ _ := none

/-- A shutdown that finds a question for the end in progress waits for its answer. -/
example :
    (run (ε := Engine) { endpoint := (⟨Pausing.here, { partition := ⟨"commands", 0⟩ }⟩ :
        Endpoint Pausing).audited }
      [.ask .endOffset, .step 0 0, .step 0 0, .ask .shutDown, .step 1 0, .step 1 0, .step 0 0,
        .step 1 0, .step 1 0, .step 1 0, .step 1 0]).endpoint.client.account =
      [.endsAsked [⟨"commands", 0⟩], .endsTold (.ok ∅), .closing .reader, .closed .reader,
        .closing .writer, .closed .writer] := rfl

end Promises

end Crowd

end ReplicatedLog
