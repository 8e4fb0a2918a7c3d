import ReplicatedLog.Channel.Basic

/-!
# The calls of a channel and its line

What one step of a call does to the line for the reading handle, whatever the
client is.

* `Call.Serves` says which request a call in progress serves; a step keeps it;
* `Call.UsesReader` and `Call.ClosesReader`: what a call has to do with the reading
  handle;
* `Call.StandsIn` says where a task with a call stands in line: nowhere, somewhere,
  or at the head;
* `LineStep`: a step leaves the line as it is, adds its own task at the end, or
  takes its own task out;
* `step_lined`: a step keeps its own task where its call has to stand, and
  `StandsIn.lineStep` those of all other tasks;
* `split_concat` takes an account of steps apart.
-/

namespace ReplicatedLog
namespace Channel

/-- An account with one more step at its end, taken apart at a step: this is the last one, or comes
before. -/
theorem split_concat {α : Type} {xs pre post : List α} {x y : α}
    (h : xs ++ [x] = pre ++ y :: post) :
    (post = [] ∧ xs = pre ∧ x = y) ∨ ∃ post', post = post' ++ [x] ∧ xs = pre ++ y :: post' := by
  rcases List.eq_nil_or_concat post with rfl | ⟨post', last, rfl⟩
  · obtain ⟨hpre, hlast⟩ := List.append_inj' h rfl
    exact Or.inl ⟨rfl, hpre, List.singleton_inj.1 hlast⟩
  · rw [List.concat_eq_append, ← List.cons_append, ← List.append_assoc] at h
    obtain ⟨hpre, hlast⟩ := List.append_inj' h rfl
    rw [List.singleton_inj.1 hlast, List.concat_eq_append]
    exact Or.inr ⟨post', rfl, hpre⟩

namespace Call

variable {σ : Type} [Client σ]

section Requests

/-- The call in progress serves the request. -/
def Serves : Call σ → Request → Prop
  | .entered r, q => r = q
  | .sent _ _, q => ∃ id c, q = .send id c
  | .inLine u, q => q = .use u
  | .polling purpose timeout _ _, q => q = .use (.poll purpose timeout)
  | .asking _, q => q = .use .endOffset
  | .closing _ _, q => q = .use .close

theorem rewind_serves (now : Nat) (me : TaskId) (e : Endpoint σ) (withOffsets : Bool)
    (timeout : Nat) {c : Call σ} (h : (rewind now me e withOffsets timeout).1 = .waiting c) :
    c.Serves (.use (.poll (.replay withOffsets) timeout)) := by
  unfold rewind at h
  dsimp only at h
  split at h
  · cases h
  · cases h
    rfl

theorem askEnd_serves {now : Nat} {me : TaskId} {e : Endpoint σ} {q : Client.Query σ} {c : Call σ}
    (h : (askEnd now me e q).1 = .waiting c) : c.Serves (.use .endOffset) := by
  unfold askEnd at h
  dsimp only at h
  split at h
  · cases h
    rfl
  · cases h

theorem closeHandle_serves {now : Nat} {me : TaskId} {e : Endpoint σ} {handle : Handle}
    {closing : Client.Closing σ handle} {c : Call σ}
    (h : (closeHandle now me e handle closing).1 = .waiting c) : c.Serves (.use .close) := by
  unfold closeHandle at h
  dsimp only at h
  split at h
  · cases h
    rfl
  · cases handle with
    | reader =>
        cases h
        rfl
    | writer => cases h

theorem useReader_serves {now : Nat} {me : TaskId} {e : Endpoint σ} {u : Use} {c : Call σ}
    (h : (useReader now me e u).1 = .waiting c) : c.Serves (.use u) := by
  cases u with
  | endOffset => exact askEnd_serves h
  | close => exact closeHandle_serves h
  | poll purpose timeout =>
      cases purpose with
      | batch =>
          cases h
          rfl
      | commands =>
          cases h
          rfl
      | replay withOffsets => exact rewind_serves now me e withOffsets timeout h

theorem takeBatch_serves {me : TaskId} {e : Endpoint σ} {timeout : Nat}
    {restored : List QueuedCommand} {b : CommandBatch} {purpose : Purpose} {c : Call σ}
    (h : (takeBatch me e timeout restored b purpose).1 = .waiting c) :
    c.Serves (.use (.poll purpose timeout)) := by
  cases purpose with
  | batch => cases h
  | commands => cases h
  | replay withOffsets =>
      unfold takeBatch at h
      dsimp only at h
      split at h
      · cases h
      · cases h
        rfl

theorem enter_serves {now : Nat} {me : TaskId} {e : Endpoint σ} {r : Request} {c : Call σ}
    (h : (enter now me e r).1 = .waiting c) : c.Serves r := by
  unfold enter at h
  split at h
  · split at h <;> cases h
  · split at h
    · cases h
      exact ⟨_, _, rfl⟩
    · cases h
      rfl

/-- A call goes on serving its request. -/
theorem step_serves {now : Nat} {me : TaskId} {e : Endpoint σ} {c c' : Call σ} {q : Request}
    (hq : c.Serves q) (h : (c.step now me e).1 = .waiting c') : c'.Serves q := by
  cases c with
  | entered r =>
      rw [← show r = q from hq]
      exact enter_serves h
  | sent w interrupts =>
      simp only [step, awaitAck] at h
      split at h
      · cases h
      · cases h
      · split at h
        · cases h
        · cases h
          exact hq
  | inLine u =>
      simp only [step] at h
      split at h
      · have hasked : q = _ := hq
        rw [hasked]
        exact useReader_serves h
      · cases h
        exact hq
  | polling purpose timeout restored p =>
      have hasked : q = _ := hq
      rw [hasked]
      simp only [step] at h
      split at h
      · cases h
        rfl
      · cases h
      · exact takeBatch_serves h
  | asking query =>
      have hasked : q = _ := hq
      rw [hasked]
      exact askEnd_serves h
  | closing handle closing =>
      have hasked : q = _ := hq
      rw [hasked]
      exact closeHandle_serves h

/-- What serves a shutdown serves nothing else. -/
theorem Serves.eq_shutDown {c : Call σ} {q : Request} (h : c.Serves q) (hs : c.Serves .shutDown) :
    q = .shutDown := by
  cases c with
  | entered r => exact h.symm.trans hs
  | sent w interrupts =>
      obtain ⟨id, command, hsend⟩ := hs
      cases hsend
  | inLine u => exact h.trans hs.symm
  | polling purpose timeout restored p => cases hs
  | asking query => cases hs
  | closing handle closing => exact h

end Requests

section Readers

/-- The call makes use of the reading handle, if only to close it. -/
def UsesReader : Call σ → Prop
  | .polling _ _ _ _ | .asking _ | .closing .reader _ => True
  | _ => False

/-- The call is about to close the reading handle. -/
def ClosesReader : Call σ → Prop
  | .inLine .close | .closing .reader _ => True
  | _ => False

end Readers

section Lines

/-- Where a task stands in line while its call is in progress. -/
def StandsIn (line : List TaskId) (me : TaskId) : Call σ → Prop
  | .inLine _ => me ∈ line
  | .polling _ _ _ _ | .asking _ | .closing .reader _ => line.head? = some me
  | _ => me ∉ line

/-- Whoever makes use of the reading handle has it. -/
theorem UsesReader.head? {line : List TaskId} {me : TaskId} {c : Call σ} (h : c.UsesReader)
    (hs : c.StandsIn line me) : line.head? = some me := by
  cases c with
  | polling purpose timeout restored p => exact hs
  | asking q => exact hs
  | closing handle closing =>
      cases handle with
      | reader => exact hs
      | writer => cases h
  | _ => cases h

/-- A shutdown waits for its turn in line, and goes on to close the reading handle when it has
come. -/
theorem ClosesReader.step_eq {me : TaskId} {e : Endpoint σ} {c : Call σ} (h : c.ClosesReader)
    (now : Nat) (hs : c.StandsIn e.channel.line me) :
    (e.channel.hasReader me = true ∧
        ∃ closing, c.step now me e = closeHandle now me e .reader closing) ∨
      c.step now me e = (.waiting c, e) := by
  cases c with
  | inLine u =>
      cases u with
      | close =>
          by_cases hhead : e.channel.hasReader me = true
          · exact Or.inl ⟨hhead, _, if_pos hhead⟩
          · exact Or.inr (if_neg hhead)
      | _ => cases h
  | closing handle closing =>
      cases handle with
      | reader =>
          have hfront : e.channel.line.head? = some me := hs
          exact Or.inl ⟨by simp [hasReader, hfront], _, rfl⟩
      | writer => cases h
  | _ => cases h

/-- Where a task stands in line after a step of its call. -/
def StandsAfter (line : List TaskId) (me : TaskId) : Progress (Call σ) Result → Prop
  | .waiting c => c.StandsIn line me
  | .done _ => me ∉ line

/-- What a step of a task may do to the line. -/
inductive LineStep (me : TaskId) (line : List TaskId) : List TaskId → Prop
  | stay : LineStep me line line
  | join (h : me ∉ line) : LineStep me line (line ++ [me])
  | leave : LineStep me line (line.erase me)

theorem LineStep.nodup {me : TaskId} {line line' : List TaskId} (h : LineStep me line line')
    (hn : line.Nodup) : line'.Nodup := by
  cases h with
  | stay => exact hn
  | join hme =>
      rw [List.nodup_append]
      refine ⟨hn, by simp, ?_⟩
      intro a ha b hb hab
      rw [List.mem_singleton] at hb
      exact hme (hb ▸ hab ▸ ha)
  | leave => exact hn.erase me

/-- A step of a task changes nothing about the place of another one. -/
theorem LineStep.mem_iff {me other : TaskId} {line line' : List TaskId}
    (h : LineStep me line line') (hne : other ≠ me) : other ∈ line' ↔ other ∈ line := by
  cases h with
  | stay => exact Iff.rfl
  | join => simp [hne]
  | leave => exact List.mem_erase_of_ne hne

theorem head?_erase_of_ne {me other : TaskId} {line : List TaskId}
    (h : line.head? = some other) (hne : other ≠ me) : (line.erase me).head? = some other := by
  cases line with
  | nil => cases h
  | cons a rest =>
      have ha : a = other := by simpa using h
      subst ha
      simp [hne]

/-- Whoever has the reading handle keeps it through the steps of the others. -/
theorem LineStep.head? {me other : TaskId} {line line' : List TaskId}
    (h : LineStep me line line') (hne : other ≠ me) (hhead : line.head? = some other) :
    line'.head? = some other := by
  cases h with
  | stay => exact hhead
  | join =>
      rw [List.head?_append, hhead]
      rfl
  | leave => exact head?_erase_of_ne hhead hne

/-- A task that is in line already can only stay or leave. -/
theorem LineStep.of_mem {me : TaskId} {line line' : List TaskId} (h : LineStep me line line')
    (hme : me ∈ line) : line' = line ∨ line' = line.erase me := by
  cases h with
  | stay => exact Or.inl rfl
  | join hout => exact absurd hme hout
  | leave => exact Or.inr rfl

/-- The call of another task stays where it has to stand. -/
theorem StandsIn.lineStep {me other : TaskId} {line line' : List TaskId} {c : Call σ}
    (h : c.StandsIn line other) (hl : LineStep me line line') (hne : other ≠ me) :
    c.StandsIn line' other := by
  cases c with
  | entered r => exact fun hm => h ((hl.mem_iff hne).1 hm)
  | sent w interrupts => exact fun hm => h ((hl.mem_iff hne).1 hm)
  | inLine u => exact (hl.mem_iff hne).2 h
  | polling purpose timeout restored p => exact hl.head? hne h
  | asking q => exact hl.head? hne h
  | closing handle closing =>
      cases handle with
      | reader => exact hl.head? hne h
      | writer => exact fun hm => h ((hl.mem_iff hne).1 hm)

/-- What a step does to the line and to the place of its own task in it. -/
def Lined (me : TaskId) (line : List TaskId) (s : Stepped σ) : Prop :=
  LineStep me line s.2.channel.line ∧ StandsAfter s.2.channel.line me s.1

theorem finish_lined {me : TaskId} {e : Endpoint σ} (hn : e.channel.line.Nodup)
    (result : Result) : Lined me e.channel.line (finish me result e) :=
  ⟨.leave, hn.not_mem_erase⟩

theorem enter_lined {now : Nat} {me : TaskId} {e : Endpoint σ} (r : Request)
    (h : me ∉ e.channel.line) : Lined me e.channel.line (enter now me e r) := by
  unfold enter
  split
  · split <;> exact ⟨.stay, h⟩
  · split
    · exact ⟨.stay, h⟩
    · exact ⟨.join h, by simp [StandsAfter, StandsIn, joinLine]⟩

theorem askEnd_lined {now : Nat} {me : TaskId} {e : Endpoint σ} (q : Client.Query σ)
    (hn : e.channel.line.Nodup) (h : e.channel.line.head? = some me) :
    Lined me e.channel.line (askEnd now me e q) := by
  simp only [askEnd]
  split
  · exact ⟨.stay, h⟩
  · exact finish_lined hn _

theorem closeHandle_lined {now : Nat} {me : TaskId} {e : Endpoint σ} (handle : Handle)
    (closing : Client.Closing σ handle) (hn : e.channel.line.Nodup)
    (h : StandsIn e.channel.line me (.closing handle closing)) :
    Lined me e.channel.line (closeHandle now me e handle closing) := by
  simp only [closeHandle]
  split
  · exact ⟨.stay, by cases handle <;> exact h⟩
  · cases handle with
    | reader => exact ⟨.leave, hn.not_mem_erase⟩
    | writer => exact ⟨.stay, h⟩

theorem useReader_lined {now : Nat} {me : TaskId} {e : Endpoint σ} (u : Use)
    (hn : e.channel.line.Nodup) (h : e.channel.line.head? = some me) :
    Lined me e.channel.line (useReader now me e u) := by
  cases u with
  | endOffset => exact askEnd_lined _ hn h
  | close => exact closeHandle_lined .reader _ hn h
  | poll purpose timeout =>
      cases purpose with
      | batch => exact ⟨.stay, h⟩
      | commands => exact ⟨.stay, h⟩
      | replay withOffsets =>
          simp only [useReader, rewind]
          split
          · exact finish_lined hn _
          · exact ⟨.stay, h⟩

theorem takeBatch_lined {me : TaskId} {e : Endpoint σ} (timeout : Nat)
    (restored : List QueuedCommand) (b : CommandBatch) (purpose : Purpose)
    (hn : e.channel.line.Nodup) (h : e.channel.line.head? = some me) :
    Lined me e.channel.line (takeBatch me e timeout restored b purpose) := by
  cases purpose with
  | batch => exact finish_lined hn _
  | commands => exact finish_lined hn _
  | replay withOffsets =>
      simp only [takeBatch]
      split
      · exact finish_lined hn _
      · exact ⟨.stay, h⟩

/-- A step of a call whose task stands where it has to keeps it so. -/
theorem step_lined (now : Nat) {me : TaskId} {e : Endpoint σ} {c : Call σ}
    (hn : e.channel.line.Nodup) (h : c.StandsIn e.channel.line me) :
    Lined me e.channel.line (c.step now me e) := by
  cases c with
  | entered r => exact enter_lined r h
  | sent w interrupts =>
      simp only [step, awaitAck]
      split
      · exact ⟨.stay, h⟩
      · exact ⟨.stay, h⟩
      · split <;> exact ⟨.stay, h⟩
  | inLine u =>
      simp only [step]
      split
      next hhead =>
        exact useReader_lined u hn (by simpa [hasReader] using hhead)
      next => exact ⟨.stay, h⟩
  | polling purpose timeout restored p =>
      simp only [step]
      split
      · exact ⟨.stay, h⟩
      · exact finish_lined hn _
      · exact takeBatch_lined (e := ⟨(Client.stepPoll now e.client p).2, e.channel⟩) timeout
          restored _ purpose hn h
  | asking q => exact askEnd_lined q hn h
  | closing handle closing => exact closeHandle_lined handle closing hn h

end Lines

end Call
end Channel
end ReplicatedLog
