import ReplicatedLog.Proofs.Channel.Calls

/-!
# What a channel has its client do

An audited client enters on account whatever it is asked for, and what its reading
side answers.  For the rest it is the client it was.

* `Item` is what can be entered, `Audited` a client with its account; what a client may have
  to wait for is an `Operation`, entered when it begins and when it ends;
* `Call.step_forget`: a call on an audited client does what it does on the client
  itself;
* `step_poll_enters`: what a step of a poll enters, and what becomes of the call;
* `step_other`: a call that is not a shutdown closes nothing, nor does it shut the
  channel down.
-/

namespace ReplicatedLog

/-- Something that a client has been asked for. -/
inductive Item
  | sent (p : Partition) (id : CommandId) (c : Command)
  | assigned (ps : List Partition)
  | sought (ps : List Partition) (result : Except LogError Unit)
  /-- The first step of a poll. -/
  | pollBegun (timeout : Nat)
  /-- The last step of a poll, which may be the first one. -/
  | pollEnded (result : Except LogError CommandBatch)
  /-- The first step of a question for end offsets. -/
  | endsAsked (ps : List Partition)
  /-- The last step of a question, which may be the first one. -/
  | endsTold (result : Except LogError (SortedMap Partition Nat))
  | woken
  /-- The first step of the closing of a handle. -/
  | closing (h : Handle)
  /-- The last step of a closing, which may be the first one. -/
  | closed (h : Handle)

/-- A client with an account of what it has been asked for. -/
structure Audited (σ : Type) where
  inner : σ
  account : List Item := []

namespace Audited

section Accounts

variable {σ : Type}

/-- The client in its new state, with more on account. -/
def enter (s : Audited σ) (inner : σ) (items : List Item) : Audited σ :=
  ⟨inner, s.account ++ items⟩

/-- An operation of an audited client: what it is asked for, whether its beginning has been entered,
and the operation of the client itself. -/
structure Operation (ι α : Type) where
  asked : ι
  hasBegun : Bool
  inner : α

variable {ι α ρ : Type}

/-- The beginning of an operation, unless it has been entered already. -/
def Operation.opening (begins : ι → Item) (op : Operation ι α) : List Item :=
  if op.hasBegun then [] else [begins op.asked]

/-- The end of an operation, if it is over. -/
def Operation.ending (ends : ρ → Item) : Progress α ρ → List Item
  | .waiting _ => []
  | .done result => [ends result]

/-- What a step of an operation leaves, and enters. -/
def Operation.after (begins : ι → Item) (ends : ρ → Item) (s : Audited σ) (op : Operation ι α)
    (stepped : Progress α ρ × σ) : Progress (Operation ι α) ρ × Audited σ :=
  (stepped.1.map (fun inner => ⟨op.asked, true, inner⟩) id,
    s.enter stepped.2 (op.opening begins ++ ending ends stepped.1))

variable [Client σ]

instance : Client (Audited σ) where
  Wait := Client.Wait σ
  Poll := Operation Nat (Client.Poll σ)
  Query := Operation (List Partition) (Client.Query σ)
  Closing h := Operation Unit (Client.Closing σ h)
  send now s p id c :=
    let (w, inner) := Client.send now s.inner p id c
    (w, s.enter inner [.sent p id c])
  outcome now s w := Client.outcome now s.inner w
  outcomeDue w := @Client.outcomeDue σ _ w
  assign now s ps :=
    let (result, inner) := Client.assign now s.inner ps
    (result, s.enter inner [.assigned ps])
  seekToBeginning now s ps :=
    let (result, inner) := Client.seekToBeginning now s.inner ps
    (result, s.enter inner [.sought ps result])
  startPoll timeout := ⟨timeout, false, Client.startPoll timeout⟩
  stepPoll now s p :=
    Operation.after .pollBegun .pollEnded s p (Client.stepPoll now s.inner p.inner)
  pollReady now s p := Client.pollReady now s.inner p.inner
  pollDue p := Client.pollDue p.inner
  startQuery ps := ⟨ps, false, Client.startQuery ps⟩
  stepQuery now s q :=
    Operation.after .endsAsked .endsTold s q (Client.stepQuery now s.inner q.inner)
  queryReady now s q := Client.queryReady now s.inner q.inner
  queryDue q := Client.queryDue q.inner
  wake now s := s.enter (Client.wake now s.inner) [.woken]
  startClosing h := ⟨(), false, Client.startClosing h⟩
  stepClosing h now s c :=
    Operation.after (fun _ => .closing h) (fun _ => .closed h) s c
      (Client.stepClosing h now s.inner c.inner)
  closingReady h now s c := Client.closingReady h now s.inner c.inner
  closingDue h c := Client.closingDue h c.inner

end Accounts

end Audited

section Closings

/-- The closing of a handle has begun or ended. -/
def Item.isClosing : Item → Bool
  | .closing _ | .closed _ => true
  | _ => false

/-- What has been done to close the handles, in its order. -/
def Audited.closings {σ : Type} (s : Audited σ) : List Item :=
  s.account.filter Item.isClosing

theorem Audited.closings_enter {σ : Type} (s : Audited σ) (inner : σ) {items : List Item}
    (h : items.filter Item.isClosing = []) : (s.enter inner items).closings = s.closings := by
  rw [closings, enter, List.filter_append, h, List.append_nil]
  rfl

theorem Audited.closings_enter_closing {σ : Type} (s : Audited σ) (inner : σ) {items : List Item}
    (h : ∀ i ∈ items, i.isClosing = true) :
    (s.enter inner items).closings = s.closings ++ items := by
  rw [closings, enter, List.filter_append, List.filter_eq_self.2 h]
  rfl

/-- The beginning of what is no closing closes nothing, and neither does its end. -/
theorem Audited.closings_opening {σ ι α : Type} (s : Audited σ) (inner : σ) (begins : ι → Item)
    (h : ∀ i, (begins i).isClosing = false) (op : Operation ι α) :
    (s.enter inner (op.opening begins)).closings = s.closings ∧
      ∀ last, last.isClosing = false →
        (s.enter inner (op.opening begins ++ [last])).closings = s.closings := by
  have hopening : (op.opening begins).filter Item.isClosing = [] := by
    rw [Operation.opening]
    cases op.hasBegun with
    | true => rfl
    | false => simp [h]
  refine ⟨s.closings_enter inner hopening, fun last hlast => s.closings_enter inner ?_⟩
  rw [List.filter_append, hopening]
  simp [hlast]

end Closings

/-- A channel whose client has nothing on account yet. -/
def Endpoint.audited {σ : Type} (e : Endpoint σ) : Endpoint (Audited σ) :=
  ⟨{ inner := e.client }, e.channel⟩

/-- A channel with its client alone. -/
def Endpoint.forget {σ : Type} (e : Endpoint (Audited σ)) : Endpoint σ :=
  ⟨e.client.inner, e.channel⟩

namespace Channel
namespace Call

variable {σ : Type} [Client σ]

section Forgetting

/-- A call of which it is forgotten that its client is audited. -/
def forget : Call (Audited σ) → Call σ
  | .entered r => .entered r
  | .sent w interrupts => .sent w interrupts
  | .inLine u => .inLine u
  | .polling purpose timeout restored p => .polling purpose timeout restored p.inner
  | .asking q => .asking q.inner
  | .closing h c => .closing h c.inner

/-- What a step has left, of which it is forgotten that the client is audited. -/
def Stepped.forget (s : Stepped (Audited σ)) : Stepped σ :=
  (s.1.map Call.forget id, s.2.forget)

variable (now : Nat) (me : TaskId) (e : Endpoint (Audited σ))

theorem enter_forget (r : Request) :
    enter now me e.forget r = Stepped.forget (enter now me e r) := by
  cases r with
  | send id c =>
      unfold enter
      by_cases hshut : e.channel.isShutDown = true
      · simp [Endpoint.forget, hshut, Stepped.forget, Progress.map]
      · simp [Endpoint.forget, hshut, Stepped.forget, Progress.map, Call.forget, Client.send,
          Audited.enter]
  | use u =>
      unfold enter
      by_cases hshut : e.channel.isShutDown = true
      · cases u <;> simp [Endpoint.forget, hshut, Stepped.forget, Progress.map]
      · simp [Endpoint.forget, hshut, Stepped.forget, Progress.map, Call.forget]

theorem awaitAck_forget (w : Client.Wait σ) (interrupts : Nat) :
    awaitAck now e.forget w interrupts =
      Stepped.forget (awaitAck (σ := Audited σ) now e w interrupts) := by
  simp only [awaitAck, Client.outcome, Endpoint.forget]
  cases Client.outcome now e.client.inner w with
  | some outcome => cases outcome <;> rfl
  | none =>
      by_cases hcalled : e.channel.interrupts = interrupts
      · simp [hcalled, Stepped.forget, Progress.map, forget, Endpoint.forget]
      · simp [hcalled, Stepped.forget, Progress.map, Endpoint.forget]

theorem askEnd_forget (q : Audited.Operation (List Partition) (Client.Query σ)) :
    askEnd now me e.forget q.inner = Stepped.forget (askEnd (σ := Audited σ) now me e q) := by
  simp only [askEnd, Client.stepQuery, Audited.Operation.after, Endpoint.forget]
  rcases Client.stepQuery now e.client.inner q.inner with ⟨progress | answer, inner⟩ <;> rfl

theorem closeHandle_forget (h : Handle) (c : Audited.Operation Unit (Client.Closing σ h)) :
    closeHandle now me e.forget h c.inner =
      Stepped.forget (closeHandle (σ := Audited σ) now me e h c) := by
  simp only [closeHandle, Client.stepClosing, Audited.Operation.after, Endpoint.forget]
  rcases Client.stepClosing h now e.client.inner c.inner with ⟨progress | ⟨⟨⟩⟩, inner⟩
  · rfl
  · cases h <;> rfl

theorem useReader_forget (u : Use) :
    useReader now me e.forget u = Stepped.forget (useReader now me e u) := by
  cases u with
  | close => exact closeHandle_forget now me e .reader ⟨(), false, Client.startClosing .reader⟩
  | endOffset =>
      exact askEnd_forget now me e
        ⟨[e.channel.partition], false, Client.startQuery [e.channel.partition]⟩
  | poll purpose timeout =>
      cases purpose with
      | batch => rfl
      | commands => rfl
      | replay withOffsets =>
          unfold useReader rewind
          simp only [Client.seekToBeginning, Endpoint.forget]
          cases (Client.seekToBeginning now e.client.inner [e.channel.partition]).1 <;> rfl

theorem takeBatch_forget (timeout : Nat) (restored : List QueuedCommand) (b : CommandBatch)
    (purpose : Purpose) :
    takeBatch me e.forget timeout restored b purpose =
      Stepped.forget (takeBatch me e timeout restored b purpose) := by
  cases purpose with
  | batch => rfl
  | commands => rfl
  | replay withOffsets =>
      unfold takeBatch
      dsimp only
      split <;> rfl

/-- A step on an audited client does what it does on the client itself. -/
theorem step_forget (c : Call (Audited σ)) :
    step now me e.forget c.forget = Stepped.forget (step now me e c) := by
  cases c with
  | entered r => exact enter_forget now me e r
  | sent w interrupts => exact awaitAck_forget now e w interrupts
  | asking q => exact askEnd_forget now me e q
  | closing h c => exact closeHandle_forget now me e h c
  | inLine u =>
      simp only [forget, step]
      by_cases hhead : e.channel.hasReader me = true
      · simp only [Endpoint.forget, hhead, if_true]
        exact useReader_forget now me e u
      · simp only [Endpoint.forget, hhead]
        rfl
  | polling purpose timeout restored p =>
      simp only [forget, step, Client.stepPoll, Audited.Operation.after, Endpoint.forget]
      rcases Client.stepPoll now e.client.inner p.inner with ⟨progress, inner⟩
      cases progress with
      | waiting q => rfl
      | done result =>
          cases result with
          | error err => rfl
          | ok b =>
              exact takeBatch_forget me
                ⟨e.client.enter inner (p.opening .pollBegun ++ [.pollEnded (.ok b)]), e.channel⟩
                timeout restored b purpose

end Forgetting

section Entering

variable (now : Nat) (me : TaskId) (e : Endpoint (Audited σ))

/-- A step of a poll enters the beginning of the poll, if it is the first one, and its end, if it is
over; and then the call fails, or goes on with the batch. -/
theorem step_poll_enters (purpose : Purpose) (timeout : Nat) (restored : List QueuedCommand)
    (p : Audited.Operation Nat (Client.Poll σ)) :
    (∃ q inner, step (σ := Audited σ) now me e (.polling purpose timeout restored p) =
        (.waiting (.polling purpose timeout restored ⟨p.asked, true, q⟩),
          ⟨e.client.enter inner (p.opening .pollBegun), e.channel⟩)) ∨
      (∃ err inner, step (σ := Audited σ) now me e (.polling purpose timeout restored p) =
        finish me (.error (.ofLog err))
          ⟨e.client.enter inner (p.opening .pollBegun ++ [.pollEnded (.error err)]), e.channel⟩) ∨
      ∃ b inner, step (σ := Audited σ) now me e (.polling purpose timeout restored p) =
        takeBatch me
          ⟨e.client.enter inner (p.opening .pollBegun ++ [.pollEnded (.ok b)]), e.channel⟩
          timeout restored b purpose := by
  simp only [step, Client.stepPoll, Audited.Operation.after]
  rcases Client.stepPoll now e.client.inner p.inner with ⟨progress, inner⟩
  cases progress with
  | waiting q =>
      refine Or.inl ⟨q, inner, ?_⟩
      simp [Progress.map, Audited.Operation.ending]
  | done result =>
      cases result with
      | error err => exact Or.inr (Or.inl ⟨err, inner, rfl⟩)
      | ok b => exact Or.inr (Or.inr ⟨b, inner, rfl⟩)

/-- A step of a question enters its beginning, if it is the first one, and its end, if it is over;
and then the call goes on, or ends with what the answer means. -/
theorem askEnd_enters (q : Audited.Operation (List Partition) (Client.Query σ)) :
    (∃ q' inner, askEnd (σ := Audited σ) now me e q =
        (.waiting (.asking ⟨q.asked, true, q'⟩),
          ⟨e.client.enter inner (q.opening .endsAsked), e.channel⟩)) ∨
      ∃ answer inner, askEnd (σ := Audited σ) now me e q =
        finish me (endOf e.channel.partition answer)
          ⟨e.client.enter inner (q.opening .endsAsked ++ [.endsTold answer]), e.channel⟩ := by
  simp only [askEnd, Client.stepQuery, Audited.Operation.after]
  rcases Client.stepQuery now e.client.inner q.inner with ⟨progress, inner⟩
  cases progress with
  | waiting q' =>
      refine Or.inl ⟨q', inner, ?_⟩
      simp [Progress.map, Audited.Operation.ending]
  | done answer => exact Or.inr ⟨answer, inner, rfl⟩

/-- A step of a closing enters its beginning, if it is the first one, and its end, if it is over;
and then the shutdown goes on with this handle or with the other one, or is over. -/
theorem closeHandle_enters (h : Handle) (c : Audited.Operation Unit (Client.Closing σ h)) :
    (∃ c' inner, closeHandle (σ := Audited σ) now me e h c =
        (.waiting (.closing h ⟨(), true, c'⟩),
          ⟨e.client.enter inner (c.opening fun _ => .closing h), e.channel⟩)) ∨
      ∃ inner, closeHandle (σ := Audited σ) now me e h c =
        let e' : Endpoint (Audited σ) :=
          ⟨e.client.enter inner ((c.opening fun _ => .closing h) ++ [.closed h]), e.channel⟩
        match h with
        | .reader =>
            (.waiting (.closing .writer ⟨(), false, Client.startClosing .writer⟩), e'.leave me)
        | .writer => (.done (.ok .done), e') := by
  simp only [closeHandle, Client.stepClosing, Audited.Operation.after]
  rcases Client.stepClosing h now e.client.inner c.inner with ⟨progress, inner⟩
  cases progress with
  | waiting c' =>
      refine Or.inl ⟨c', inner, ?_⟩
      simp [Progress.map, Audited.Operation.ending]
  | done u => exact Or.inr ⟨inner, by cases h <;> rfl⟩

end Entering

section Closing

variable {now : Nat} {me : TaskId} {e : Endpoint (Audited σ)} {c c' : Call (Audited σ)}

/-- What does not serve a shutdown does not go on serving one. -/
theorem step_serves_other (h : ¬ c.Serves .shutDown) (hc : (c.step now me e).1 = .waiting c') :
    ¬ c'.Serves .shutDown := by
  intro hs
  have hone : ∀ q, c.Serves q → q = .shutDown :=
    fun q hq => (step_serves hq hc).eq_shutDown hs
  cases c with
  | entered r => exact h (hone r rfl)
  | inLine u => exact h (hone _ rfl).symm
  | polling purpose timeout restored p => cases hone _ rfl
  | asking query => cases hone _ rfl
  | closing handle closing => exact h rfl
  | sent w interrupts =>
      simp only [step, awaitAck] at hc
      split at hc
      · cases hc
      · cases hc
      · split at hc
        · cases hc
        · cases hc
          obtain ⟨id, command, hsend⟩ := hs
          cases hsend

theorem takeBatch_frame (me : TaskId) (e : Endpoint σ) (timeout : Nat)
    (restored : List QueuedCommand) (b : CommandBatch) (purpose : Purpose) :
    (takeBatch me e timeout restored b purpose).2.client = e.client ∧
      (takeBatch me e timeout restored b purpose).2.channel.isShutDown = e.channel.isShutDown := by
  cases purpose with
  | batch => exact ⟨rfl, rfl⟩
  | commands => exact ⟨rfl, rfl⟩
  | replay withOffsets =>
      simp only [takeBatch]
      split <;> exact ⟨rfl, rfl⟩

/-- A question for the end closes nothing and does not shut the channel down. -/
theorem askEnd_other (now : Nat) (me : TaskId) (e : Endpoint (Audited σ))
    (q : Audited.Operation (List Partition) (Client.Query σ)) :
    (askEnd (σ := Audited σ) now me e q).2.client.closings = e.client.closings ∧
      (askEnd (σ := Audited σ) now me e q).2.channel.isShutDown = e.channel.isShutDown := by
  have hcloses := fun inner => e.client.closings_opening inner .endsAsked (fun _ => rfl) q
  rcases askEnd_enters now me e q with ⟨q', inner, hstep⟩ | ⟨answer, inner, hstep⟩
  · rw [hstep]
    exact ⟨(hcloses inner).1, rfl⟩
  · rw [hstep]
    exact ⟨(hcloses inner).2 _ rfl, rfl⟩

/-- What is not a shutdown closes nothing and does not shut the channel down. -/
theorem step_other (now : Nat) (me : TaskId) (e : Endpoint (Audited σ))
    (h : ¬ c.Serves .shutDown) :
    (c.step now me e).2.client.closings = e.client.closings ∧
      (c.step now me e).2.channel.isShutDown = e.channel.isShutDown := by
  cases c with
  | entered r =>
      simp only [step, enter]
      split
      · split <;> exact ⟨rfl, rfl⟩
      next hopen =>
        split
        · exact ⟨Audited.closings_enter _ _ rfl, rfl⟩
        next u =>
          refine ⟨rfl, ?_⟩
          have hu : u ≠ .close := by
            rintro rfl
            exact h rfl
          simp [joinLine, hu, Bool.eq_false_iff.2 hopen]
  | sent w interrupts =>
      simp only [step, awaitAck]
      split
      · exact ⟨rfl, rfl⟩
      · exact ⟨rfl, rfl⟩
      · split <;> exact ⟨rfl, rfl⟩
  | inLine u =>
      simp only [step]
      split
      · cases u with
        | close => exact absurd rfl h
        | endOffset =>
            exact askEnd_other now me e
              ⟨[e.channel.partition], false, Client.startQuery [e.channel.partition]⟩
        | poll purpose timeout =>
            cases purpose with
            | batch => exact ⟨rfl, rfl⟩
            | commands => exact ⟨rfl, rfl⟩
            | replay withOffsets =>
                simp only [useReader, rewind]
                split <;> exact ⟨Audited.closings_enter _ _ rfl, rfl⟩
      · exact ⟨rfl, rfl⟩
  | polling purpose timeout restored p =>
      have hcloses := fun inner => e.client.closings_opening inner .pollBegun (fun _ => rfl) p
      rcases step_poll_enters now me e purpose timeout restored p with
        ⟨q, inner, hstep⟩ | ⟨err, inner, hstep⟩ | ⟨b, inner, hstep⟩
      · rw [hstep]
        exact ⟨(hcloses inner).1, rfl⟩
      · rw [hstep]
        exact ⟨(hcloses inner).2 _ rfl, rfl⟩
      · rw [hstep]
        obtain ⟨hclient, hshut⟩ := takeBatch_frame me
          ⟨e.client.enter inner (p.opening .pollBegun ++ [.pollEnded (.ok b)]), e.channel⟩ timeout
          restored b purpose
        rw [hclient, hshut]
        exact ⟨(hcloses inner).2 _ rfl, rfl⟩
  | asking q => exact askEnd_other now me e q
  | closing handle closing => exact absurd rfl h

end Closing

end Call
end Channel
end ReplicatedLog
