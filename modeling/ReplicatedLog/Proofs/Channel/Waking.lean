import ReplicatedLog.Proofs.Channel.Traffic

/-!
# What becomes of a wakeup

A wakeup stays pending until a call of the reader has taken it, and no poll that
takes nothing else waits or comes to its end while one is pending.

* `Reader.LeavesWakeup`: what a step of a poll does about a wakeup;
* `Call.IsCalled`: a poll that waits is called on when a wakeup is pending, and
  `step_isCalled`: a step of a call that polls leaves it so;
* `step_not_replayed`: no replay succeeds while a wakeup is pending;
* `Call.step_interrupts`: no call interrupts the channel;
* `Reader.Spares`: what others leave of a wakeup that only send, shut the channel
  down or interrupt it.
-/

namespace ReplicatedLog

namespace Reader

variable {κ ν : Type} {schema : Schema κ ν} {now : Nat} {log : Log}

/-- What a step of a poll does about a wakeup: it waits or brings nothing only if none is pending,
and takes none unless it fails. -/
structure LeavesWakeup (r : Reader) (s : Progress Poll (Except LogError (Batch κ ν)) × Reader) :
    Prop where
  calls : s.2.calls = r.calls
  waits : ∀ p, s.1 = .waiting p → r.isWoken = false ∧ s.2.isWoken = false ∧
    ∃ deadline seen, p = .parked deadline seen ∧ seen.calls = r.calls
  brings : ∀ b, s.1 = .done (.ok b) → s.2.isWoken = r.isWoken ∧
    (b.isEmpty = true → r.isWoken = false)

theorem attempt_leavesWakeup (r : Reader) (deadline : Nat) :
    r.LeavesWakeup (r.attempt schema now log deadline) := by
  have hends := attempt_attempts schema now log r deadline
  generalize r.attempt schema now log deadline = outcome at hends ⊢
  cases hends with
  | fails hf => exact ⟨fetch_calls hf, nofun, nofun⟩
  | brings hf hsome =>
      refine ⟨fetch_calls hf, nofun, fun b h => ?_⟩
      cases h
      exact ⟨fetch_isWoken hf, fun hempty => absurd (hsome.symm.trans hempty) nofun⟩
  | refuses hf hnone hu =>
      exact ⟨(ensureUsable_calls hu).trans (fetch_calls hf), nofun, nofun⟩
  | expires hf hnone hu hdue =>
      have hwoken := fetch_isWoken hf
      obtain ⟨-, -, hcalm⟩ := ensureUsable_ok hu
      refine ⟨fetch_calls hf, nofun, fun b h => ?_⟩
      cases h
      exact ⟨hwoken, fun _ => hwoken ▸ hcalm⟩
  | waits hf hnone hu hearly =>
      have hwoken := fetch_isWoken hf
      obtain ⟨-, -, hcalm⟩ := ensureUsable_ok hu
      refine ⟨fetch_calls hf, fun p h => ?_, nofun⟩
      cases h
      exact ⟨hwoken ▸ hcalm, hcalm, deadline, _, rfl, rfl⟩

theorem stepPoll_leavesWakeup (schema : Schema κ ν) (now : Nat) (log : Log) (r : Reader)
    (p : Poll) :
    r.LeavesWakeup (r.stepPoll schema now log p) := by
  rcases stepPoll_cases schema now r p with ⟨err, r', hu, hstep⟩ | ⟨deadline, hstep⟩
  · rw [hstep]
    exact ⟨ensureUsable_calls hu, nofun, nofun⟩
  · rw [hstep]
    exact attempt_leavesWakeup r deadline

/-- Whoever has done this to a reader has left a pending wakeup, and has called on its polls if
there is a new one. -/
structure Spares (r r' : Reader) : Prop where
  calls : r.calls ≤ r'.calls
  pending : r.isWoken = true → r'.isWoken = true
  called : r'.isWoken = true → r.isWoken = true ∨ r.calls < r'.calls

theorem Spares.refl (r : Reader) : r.Spares r :=
  ⟨Nat.le_refl _, id, Or.inl⟩

theorem wake_spares (r : Reader) : r.Spares r.wake :=
  ⟨Nat.le_succ _, fun _ => rfl, fun _ => Or.inr (Nat.lt_succ_self _)⟩

theorem close_spares (r : Reader) : r.Spares r.close := by
  unfold close
  split
  · exact .refl r
  · exact ⟨Nat.le_succ _, id, Or.inl⟩

end Reader

namespace Channel

/-- A request that makes no use of the reader but to close it. -/
def Request.IsAside : Request → Prop
  | .send _ _ | .use .close => True
  | _ => False

namespace Call

section Polls

variable {now : Nat} {me : TaskId} {e : Endpoint SharedLog} {c c' : Call SharedLog}
  {purpose : Purpose} {timeout : Nat}

/-- If the call waits in a poll, it has been called on if a wakeup is pending. -/
def IsCalled (r : Reader) : Call SharedLog → Prop
  | .polling _ _ _ (.parked _ seen) =>
      seen.calls ≤ r.calls ∧ (r.isWoken = true → seen.calls < r.calls)
  | _ => True

theorem IsCalled.spares {r r' : Reader} (h : c.IsCalled r) (hr : r.Spares r') : c.IsCalled r' := by
  cases c with
  | polling purpose timeout restored p =>
      cases p with
      | started timeout => trivial
      | parked deadline seen =>
          refine ⟨Nat.le_trans h.1 hr.calls, fun hwoken => ?_⟩
          rcases hr.called hwoken with hold | hlt
          · exact Nat.lt_of_lt_of_le (h.2 hold) hr.calls
          · exact Nat.lt_of_le_of_lt h.1 hlt
  | _ => trivial

theorem rewind_isWoken (now : Nat) (withOffsets : Bool) :
    (rewind now me e withOffsets timeout).2.client.reader.isWoken = e.client.reader.isWoken := by
  have hreader : (rewind now me e withOffsets timeout).2.client.reader =
      (e.client.reader.seekToBeginning [e.channel.partition]).2 := by
    unfold rewind
    dsimp only
    split <;> rfl
  rw [hreader]
  unfold Reader.seekToBeginning
  split <;> rfl

theorem takeBatch_client (restored : List QueuedCommand) (b : CommandBatch) :
    (takeBatch me e timeout restored b purpose).2.client = e.client := by
  cases purpose with
  | batch => rfl
  | commands => rfl
  | replay withOffsets =>
      unfold takeBatch
      dsimp only
      split <;> rfl

/-- A step of a poll within a call, by what the step of the poll comes to. -/
theorem step_polling {restored : List QueuedCommand} {p : Reader.Poll}
    {progress : Progress Reader.Poll (Except LogError CommandBatch)} {r : Reader} :
    e.client.reader.stepPoll e.client.schema now e.client.log p = (progress, r) →
    step now me e (.polling purpose timeout restored p) =
      match progress with
      | .waiting p =>
          (.waiting (.polling purpose timeout restored p),
            { e with client := { e.client with reader := r } })
      | .done (.error err) =>
          finish me (.error (.ofLog err)) { e with client := { e.client with reader := r } }
      | .done (.ok b) =>
          takeBatch me { e with client := { e.client with reader := r } } timeout restored b
            purpose := by
  intro h
  simp only [step, Client.stepPoll, h]
  cases progress with
  | waiting p => rfl
  | done result => cases result <;> rfl

/-- A call that goes on after a poll waits in it, or is in a replay whose poll has brought
something. -/
theorem takeBatch_waiting {restored : List QueuedCommand} {b : CommandBatch}
    (h : (takeBatch me e timeout restored b purpose).1 = .waiting c') :
    ∃ withOffsets, c' = .polling (.replay withOffsets) timeout (restored ++ b.commands)
      (.started timeout) := by
  cases purpose with
  | batch => cases h
  | commands => cases h
  | replay withOffsets =>
      unfold takeBatch at h
      dsimp only at h
      split at h
      · cases h
      · cases h
        exact ⟨withOffsets, rfl⟩

/-- A call that polls and goes on leaves a wakeup pending, and has been called on if there is
one. -/
theorem step_isCalled (hs : c.Serves (.use (.poll purpose timeout)))
    (h : (c.step now me e).1 = .waiting c') :
    (c.step now me e).2.client.reader.isWoken = e.client.reader.isWoken ∧
      c'.IsCalled (c.step now me e).2.client.reader := by
  cases c with
  | entered r =>
      cases hs
      simp only [step, enter] at h ⊢
      split at h
      · cases h
      next hopen =>
        cases h
        rw [if_neg hopen]
        exact ⟨rfl, trivial⟩
  | sent w interrupts =>
      obtain ⟨id, cmd, hsend⟩ := hs
      cases hsend
  | asking ps => cases hs
  | closing handle closing => cases hs
  | inLine u =>
      cases hs
      simp only [step] at h ⊢
      split at h
      next hhead =>
        rw [if_pos hhead]
        cases purpose with
        | batch =>
            cases h
            exact ⟨rfl, trivial⟩
        | commands =>
            cases h
            exact ⟨rfl, trivial⟩
        | replay withOffsets =>
            refine ⟨rewind_isWoken now withOffsets, ?_⟩
            simp only [useReader, rewind] at h
            split at h
            · cases h
            · cases h
              trivial
      next hhead =>
        cases h
        rw [if_neg hhead]
        exact ⟨rfl, trivial⟩
  | polling purpose timeout restored p =>
      have hleaves :=
        Reader.stepPoll_leavesWakeup e.client.schema now e.client.log e.client.reader p
      rcases hstep : e.client.reader.stepPoll e.client.schema now e.client.log p with ⟨progress, r⟩
      rw [hstep] at hleaves
      obtain ⟨hcalls, hwaits, hbrings⟩ := hleaves
      rw [step_polling hstep] at h ⊢
      cases progress with
      | waiting p' =>
          cases h
          obtain ⟨hnone, hnone', deadline, seen, rfl, hseen⟩ := hwaits p' rfl
          refine ⟨hnone'.trans hnone.symm, ?_, fun hwoken => ?_⟩
          · exact Nat.le_of_eq (hseen.trans hcalls.symm)
          · cases hnone'.symm.trans hwoken
      | done result =>
          cases result with
          | error err => cases h
          | ok b =>
              dsimp only at h ⊢
              rw [takeBatch_client]
              obtain ⟨withOffsets, rfl⟩ := takeBatch_waiting h
              exact ⟨(hbrings b rfl).1, trivial⟩

/-- No replay succeeds while a wakeup is pending. -/
theorem step_not_replayed {withOffsets : Bool}
    (hs : c.Serves (.use (.poll (.replay withOffsets) timeout)))
    (hwoken : e.client.reader.isWoken = true) (reply : Reply) :
    (c.step now me e).1 ≠ .done (.ok reply) := by
  intro h
  cases c with
  | entered r =>
      cases hs
      simp only [step, enter] at h
      split at h <;> cases h
  | sent w interrupts =>
      obtain ⟨id, cmd, hsend⟩ := hs
      cases hsend
  | asking ps => cases hs
  | closing handle closing => cases hs
  | inLine u =>
      cases hs
      simp only [step, useReader, rewind] at h
      split at h
      · split at h <;> cases h
      · cases h
  | polling purpose timeout restored p =>
      cases hs
      have hleaves :=
        Reader.stepPoll_leavesWakeup e.client.schema now e.client.log e.client.reader p
      rcases hstep : e.client.reader.stepPoll e.client.schema now e.client.log p with ⟨progress, r⟩
      rw [hstep] at hleaves
      rw [step_polling hstep] at h
      cases progress with
      | waiting p' => cases h
      | done result =>
          cases result with
          | error err => cases h
          | ok b =>
              simp only [takeBatch] at h
              split at h
              next hempty =>
                have hnone := (hleaves.brings b rfl).2 hempty
                rw [hwoken] at hnone
                cases hnone
              next => cases h

end Polls

section Interrupting

variable (now : Nat) (me : TaskId) (e : Endpoint SharedLog)

theorem takeBatch_interrupts (timeout : Nat) (restored : List QueuedCommand) (b : CommandBatch)
    (purpose : Purpose) :
    (takeBatch me e timeout restored b purpose).2.channel.interrupts = e.channel.interrupts := by
  cases purpose with
  | batch => rfl
  | commands => rfl
  | replay withOffsets =>
      simp only [takeBatch]
      split <;> rfl

theorem closeHandle_interrupts (handle : Handle) (closing : Unit) :
    (closeHandle now me e handle closing).2.channel.interrupts = e.channel.interrupts := by
  cases handle <;> rfl

theorem useReader_interrupts (u : Use) :
    (useReader now me e u).2.channel.interrupts = e.channel.interrupts := by
  cases u with
  | close => exact closeHandle_interrupts now me e .reader ()
  | endOffset => rfl
  | poll purpose timeout =>
      cases purpose with
      | batch => rfl
      | commands => rfl
      | replay withOffsets =>
          simp only [useReader, rewind]
          split <;> rfl

/-- No call interrupts the channel. -/
theorem step_interrupts (c : Call SharedLog) :
    (c.step now me e).2.channel.interrupts = e.channel.interrupts := by
  cases c with
  | entered r =>
      simp only [step, enter]
      split
      · split <;> rfl
      · split <;> rfl
  | sent w interrupts =>
      exact congrArg (fun e' : Endpoint SharedLog => e'.channel.interrupts)
        (awaitAck_endpoint now e w interrupts)
  | asking ps => rfl
  | closing handle closing => exact closeHandle_interrupts now me e handle closing
  | inLine u =>
      simp only [step]
      split
      · exact useReader_interrupts now me e u
      · rfl
  | polling purpose timeout restored p =>
      simp only [step]
      split
      · rfl
      · rfl
      · exact takeBatch_interrupts me _ timeout restored _ purpose

end Interrupting

end Call
end Channel

namespace Traffic

open Channel

/-- Every request in progress makes no use of the reader but to close it. -/
def Aside (t : Traffic) : Prop :=
  ∀ id k, t.tickets id = some k → k.request.IsAside

/-- A move that makes no request of the reader but to close it. -/
def Move.IsAside : Move → Prop
  | .enter r => r.IsAside
  | _ => True

variable {t : Traffic} {m : Move}

theorem Aside.perform (h : t.Aside) (hm : m.IsAside) : (t.perform m).Aside := by
  intro id k' hk'
  cases m with
  | enter r =>
      rcases put_cases hk' with ⟨-, hnew⟩ | ⟨-, hold⟩
      · cases hnew
        exact hm
      · exact h id k' hold
  | step task now =>
      simp only [Traffic.perform] at hk'
      split at hk'
      next k hk =>
        rcases advance_tickets hk' with ⟨-, hr, -⟩ | ⟨-, hold⟩
        · rw [hr]
          exact h task k hk
        · exact h id k' hold
      next => exact h id k' hk'
  | abandon task =>
      simp only [Traffic.perform] at hk'
      split at hk'
      · rcases put_cases hk' with ⟨-, hnew⟩ | ⟨-, hold⟩
        · cases hnew
        · exact h id k' hold
      · exact h id k' hk'
  | interrupt now => exact h id k' hk'
  | onLog op => exact h id k' hk'

theorem closeHandle_spares (now : Nat) (me : TaskId) (e : Endpoint SharedLog)
    (handle : Handle) (closing : Unit) :
    e.client.reader.Spares (Call.closeHandle now me e handle closing).2.client.reader := by
  cases handle with
  | reader => exact Reader.close_spares _
  | writer => exact .refl _

/-- A step of a call that makes no use of the reader but to close it spares it. -/
theorem step_spares {now : Nat} {me : TaskId} {e : Endpoint SharedLog} {c : Call SharedLog}
    {r : Request} (hs : c.Serves r) (hr : r.IsAside) :
    e.client.reader.Spares (c.step now me e).2.client.reader := by
  cases c with
  | entered r' =>
      simp only [Call.step, Call.enter]
      split
      · split <;> exact .refl _
      · split <;> exact .refl _
  | sent w interrupts =>
      rw [show (Call.step now me e (.sent w interrupts)).2 = e from
        Call.awaitAck_endpoint now e w interrupts]
      exact .refl _
  | asking ps =>
      cases hs
      cases hr
  | closing handle closing => exact closeHandle_spares now me e handle closing
  | inLine u =>
      cases hs
      simp only [Call.step]
      split
      · cases u with
        | close => exact closeHandle_spares now me e .reader ()
        | poll purpose timeout => cases hr
        | endOffset => cases hr
      · exact .refl _
  | polling purpose timeout restored p =>
      cases hs
      cases hr

/-- A move that makes no use of the reader but to close or to wake it spares it. -/
theorem perform_spares (hs : t.Serving) (h : t.Aside) (m : Move) :
    t.endpoint.client.reader.Spares (t.perform m).endpoint.client.reader := by
  cases m with
  | enter r => exact .refl _
  | step task now =>
      simp only [Traffic.perform]
      split
      next k hk => exact step_spares (hs task k hk) (h task k hk)
      next => exact .refl _
  | abandon task =>
      simp only [Traffic.perform]
      split <;> exact .refl _
  | interrupt now => exact Reader.wake_spares _
  | onLog op => exact .refl _

end Traffic
end ReplicatedLog
