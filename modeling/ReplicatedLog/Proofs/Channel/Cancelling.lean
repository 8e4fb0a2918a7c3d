import ReplicatedLog.Proofs.Channel.Waking
import ReplicatedLog.Proofs.Log.Advancing

/-!
# How a wakeup surfaces in a channel

The calls that use the reading handle of a channel are cancelled by a wakeup of its reader, and by
nothing else.

* `Call.readerFailure`: how the reader fails in a step of a call, and `step_cancelled_iff`: the
  call is cancelled just when this is a wakeup;
* `step_heard`: what a step of a call does to the flag of the reader;
* `Traffic.Cancels` is what is promised of the calls that are cancelled, and `run_cancels`: it
  holds after any moves.
-/

namespace ReplicatedLog

namespace Channel

theorem Error.ofLog_eq_waitCancelled_iff {err : LogError} {reason : String} :
    Error.ofLog err = .waitCancelled reason ↔ err = .wakeup ∧ reason = LogError.wakeup.message := by
  cases err <;> simp [ofLog, eq_comm]

end Channel

namespace Reader

variable {κ ν : Type} {schema : Schema κ ν} {now : Nat} {log : Log} {r : Reader}

theorem rewind_ne_wakeup (ps : List Partition) :
    ∀ m : SortedMap Partition Nat, (rewind ps m).1 ≠ .error .wakeup := by
  induction ps with
  | nil => simp [rewind]
  | cons p ps ih =>
      rintro m
      rw [rewind]
      split
      · exact ih _
      · simp

theorem seekToBeginning_ne_wakeup (r : Reader) (ps : List Partition) :
    (r.seekToBeginning ps).1 ≠ .error .wakeup := by
  rw [seekToBeginning]
  split
  · simp
  · exact rewind_ne_wakeup ps r.positions

/-- A fold each step of which may fail, but not with a wakeup. -/
theorem foldlM_ne_wakeup {α β : Type} {f : β → α → Except LogError β}
    (hf : ∀ b a, f b a ≠ .error .wakeup) (as : List α) :
    ∀ b, as.foldlM f b ≠ .error .wakeup := by
  induction as with
  | nil => simp [pure, Except.pure]
  | cons a as ih =>
      rintro b h
      rw [List.foldlM_cons] at h
      cases hstep : f b a with
      | error err =>
          rw [hstep] at h
          cases h
          exact hf b a hstep
      | ok c =>
          rw [hstep] at h
          exact ih c h

/-- The only failure of the log itself is that a partition is not there. -/
theorem endOffsetsOf_ne_wakeup (log : Log) (ps : List Partition) :
    endOffsetsOf log ps ≠ .error .wakeup := by
  refine foldlM_ne_wakeup ?_ ps ∅
  rintro m p
  split <;> simp

/-- The flag of a reader after a call: it is taken if the call has failed with a wakeup, and left
otherwise. -/
structure TakesWakeup (r : Reader) (woken : Prop) (r' : Reader) : Prop where
  taken : woken → r.isWoken = true ∧ r'.isWoken = false
  left : ¬ woken → r'.isWoken = r.isWoken

theorem TakesWakeup.of_left {woken : Prop} {r' : Reader} (hw : ¬ woken)
    (h : r'.isWoken = r.isWoken) : r.TakesWakeup woken r' :=
  ⟨fun hwoken => absurd hwoken hw, fun _ => h⟩

theorem TakesWakeup.congr {a b : Prop} {r' : Reader} (h : r.TakesWakeup a r') (hab : b ↔ a) :
    r.TakesWakeup b r' :=
  ⟨fun hb => h.taken (hab.1 hb), fun hb => h.left fun ha => hb (hab.2 ha)⟩

theorem ensureUsable_takes (r : Reader) :
    r.TakesWakeup (r.ensureUsable.1 = .error .wakeup) r.ensureUsable.2 := by
  rcases ensureUsable_cases r with ⟨-, hu⟩ | ⟨-, hwoken, hu⟩ | ⟨-, -, hu⟩
  · rw [hu]
    exact .of_left (by simp) rfl
  · rw [hu]
    exact ⟨fun _ => ⟨hwoken, rfl⟩, fun h => absurd rfl h⟩
  · rw [hu]
    exact .of_left (by simp) rfl

theorem endOffsets_takes (log : Log) (r : Reader) (ps : List Partition) :
    r.TakesWakeup ((r.endOffsets log ps).1 = .error .wakeup) (r.endOffsets log ps).2 := by
  have husable := ensureUsable_takes r
  rw [endOffsets]
  rcases hu : r.ensureUsable with ⟨err | ⟨⟨⟩⟩, r'⟩
  · rw [hu] at husable
    exact husable.congr (by simp)
  · rw [hu] at husable
    exact .of_left (endOffsetsOf_ne_wakeup log ps) (husable.left (by simp))

/-- A fetch never fails with a wakeup. -/
theorem Unreadable.ne_wakeup {p : Partition} {err : LogError} (h : Unreadable schema log p err) :
    err ≠ .wakeup := by
  cases h <;> simp

theorem attempt_takes (schema : Schema κ ν) (now : Nat) (log : Log) (r : Reader) (deadline : Nat) :
    r.TakesWakeup ((r.attempt schema now log deadline).1 = .done (.error .wakeup))
      (r.attempt schema now log deadline).2 := by
  have hends := attempt_attempts schema now log r deadline
  generalize r.attempt schema now log deadline = outcome at hends ⊢
  cases hends with
  | fails hf =>
      obtain ⟨⟨p, -, hunreadable⟩, -⟩ := fetch_fails hf
      refine .of_left ?_ (fetch_isWoken hf)
      rintro h
      cases h
      exact hunreadable.ne_wakeup rfl
  | brings hf hsome => exact .of_left nofun (fetch_isWoken hf)
  | @refuses b r' r'' err hf hnone hu =>
      obtain rfl := fetch_nothing hf hnone
      have husable := ensureUsable_takes r'
      rw [hu] at husable
      exact husable.congr (by simp)
  | expires hf hnone hu hdue => exact .of_left nofun (fetch_isWoken hf)
  | waits hf hnone hu hearly => exact .of_left nofun (fetch_isWoken hf)

theorem close_isWoken (r : Reader) : r.close.isWoken = r.isWoken := by
  rw [close]
  split <;> rfl

/-- A step of a poll takes a pending wakeup if it fails with it, and leaves the flag otherwise. -/
theorem stepPoll_takes (schema : Schema κ ν) (now : Nat) (log : Log) (r : Reader) (p : Poll) :
    r.TakesWakeup ((r.stepPoll schema now log p).1 = .done (.error .wakeup))
      (r.stepPoll schema now log p).2 := by
  rcases stepPoll_cases schema now r p with ⟨err, r', hu, hstep⟩ | ⟨deadline, hstep⟩
  · have husable := ensureUsable_takes r
    rw [hu] at husable
    rw [hstep]
    exact husable.congr (by simp)
  · rw [hstep]
    exact attempt_takes schema now log r deadline

end Reader

namespace Channel
namespace Call

variable {now : Nat} {me : TaskId} {e : Endpoint SharedLog} {c : Call SharedLog} {q : Request}

/-- The failure that a result of the reader is. -/
def failure? {α : Type} : Except LogError α → Option LogError
  | .error err => some err
  | .ok _ => none

/-- How the reader of the channel fails in a step of a call: in the step of a poll, or of a question
for the end. -/
def readerFailure (now : Nat) (me : TaskId) (e : Endpoint SharedLog) :
    Call SharedLog → Option LogError
  | .polling _ _ _ p =>
      match (e.client.reader.stepPoll e.client.schema now e.client.log p).1 with
      | .done result => failure? result
      | .waiting _ => none
  | .inLine .endOffset =>
      if e.channel.hasReader me then
        failure? (e.client.reader.endOffsets e.client.log [e.channel.partition]).1
      else none
  | .asking ps => failure? (e.client.reader.endOffsets e.client.log ps).1
  | _ => none

/-- A step that cancels a call of the reading side. -/
def Cancels (q : Request) (progress : Progress (Call SharedLog) Result) (reason : String) : Prop :=
  (∃ u, q = .use u) ∧ progress = .done (.error (.waitCancelled reason))

/-- What a step of a call comes to in terms of the reader: the call is cancelled if the reader has
failed with a wakeup, for this reason, and then the wakeup is taken; otherwise it is not cancelled
and the flag is left. -/
inductive Heard (q : Request) (failure : Option LogError)
    (e : Endpoint SharedLog) (s : Stepped SharedLog) : Prop
  | woken (failed : failure = some .wakeup)
      (cancels : Cancels q s.1 LogError.wakeup.message)
      (before : e.client.reader.isWoken = true) (after : s.2.client.reader.isWoken = false)
  | spared (failed : failure ≠ some .wakeup) (goesOn : ∀ reason, ¬ Cancels q s.1 reason)
      (flag : s.2.client.reader.isWoken = e.client.reader.isWoken)

variable {failure : Option LogError} {e' : Endpoint SharedLog} {result : Result}

theorem Heard.waiting (hf : failure ≠ some .wakeup) (c : Call SharedLog)
    (hflag : e'.client.reader.isWoken = e.client.reader.isWoken) :
    Heard q failure e (.waiting c, e') := by
  refine .spared hf ?_ hflag
  rintro reason ⟨-, hdone⟩
  cases hdone

theorem Heard.done (hf : failure ≠ some .wakeup)
    (hresult : ∀ reason, result ≠ .error (.waitCancelled reason))
    (hflag : e'.client.reader.isWoken = e.client.reader.isWoken) :
    Heard q failure e (.done result, e') := by
  refine .spared hf ?_ hflag
  rintro reason ⟨-, hdone⟩
  cases hdone
  exact hresult reason rfl

theorem enter_heard (now : Nat) (me : TaskId) (e : Endpoint SharedLog) (r : Request) :
    Heard r none e (enter now me e r) := by
  have hnone : (none : Option LogError) ≠ some .wakeup := by simp
  simp only [enter]
  split
  · split
    · exact .done hnone (by simp) rfl
    · exact .done hnone (by simp) rfl
  · split
    · exact .waiting hnone _ rfl
    · exact .waiting hnone _ rfl

/-- A failure of the reader ends the call. -/
theorem failed_heard {u : Use} {err : LogError} {r : Reader}
    (h : e.client.reader.TakesWakeup (err = .wakeup) r) :
    Heard (.use u) (some err) e
      (finish me (.error (.ofLog err)) { e with client := { e.client with reader := r } }) := by
  by_cases hw : err = .wakeup
  · subst hw
    obtain ⟨hbefore, hafter⟩ := h.taken rfl
    exact .woken rfl ⟨⟨u, rfl⟩, rfl⟩ hbefore hafter
  · refine .spared (fun h => hw (Option.some.inj h)) ?_ (h.left hw)
    rintro reason ⟨-, hdone⟩
    have hreason : Error.ofLog err = .waitCancelled reason := by
      injection hdone with hdone
      injection hdone
    exact hw (Error.ofLog_eq_waitCancelled_iff.1 hreason).1

theorem askEnd_heard (now : Nat) (me : TaskId) (e : Endpoint SharedLog) (ps : List Partition) :
    Heard (.use .endOffset) (failure? (e.client.reader.endOffsets e.client.log ps).1) e
      (askEnd now me e ps) := by
  have htakes := Reader.endOffsets_takes e.client.log e.client.reader ps
  rw [askEnd_eq]
  rcases hends : e.client.reader.endOffsets e.client.log ps with ⟨err | ends, r⟩
  · rw [hends] at htakes
    exact failed_heard (htakes.congr (by simp))
  · rw [hends] at htakes
    have hflag := htakes.left (by simp)
    refine .done (by simp [failure?]) (fun reason => ?_) hflag
    rw [endOf]
    split <;> simp

theorem closeHandle_heard (now : Nat) (me : TaskId) (e : Endpoint SharedLog)
    (handle : Handle) (closing : Unit) :
    Heard q none e (closeHandle now me e handle closing) := by
  have hnone : (none : Option LogError) ≠ some .wakeup := by simp
  cases handle with
  | reader => exact .waiting hnone _ (Reader.close_isWoken _)
  | writer => exact .done hnone (by simp) rfl

theorem rewind_heard (now : Nat) (me : TaskId) (e : Endpoint SharedLog) (withOffsets : Bool)
    (timeout : Nat) : Heard q none e (rewind now me e withOffsets timeout) := by
  refine .spared (by simp) ?_ (rewind_isWoken now withOffsets)
  have hseek := Reader.seekToBeginning_ne_wakeup e.client.reader [e.channel.partition]
  rintro reason ⟨-, hdone⟩
  rcases hs : e.client.reader.seekToBeginning [e.channel.partition] with ⟨err | ⟨⟨⟩⟩, r⟩
  · simp only [rewind, Client.seekToBeginning, hs] at hdone
    have hreason : Error.ofLog err = .waitCancelled reason := by
      injection hdone with hdone
      injection hdone
    rw [hs, (Error.ofLog_eq_waitCancelled_iff.1 hreason).1] at hseek
    exact hseek rfl
  · simp only [rewind, Client.seekToBeginning, hs] at hdone
    cases hdone

theorem useReader_heard (hhead : e.channel.hasReader me = true) (u : Use) :
    Heard (.use u) ((Call.inLine u).readerFailure now me e) e (useReader now me e u) := by
  cases u with
  | endOffset =>
      simp only [readerFailure, if_pos hhead]
      exact askEnd_heard now me e [e.channel.partition]
  | close => exact closeHandle_heard now me e .reader ()
  | poll purpose timeout =>
      cases purpose with
      | batch => exact .waiting (by simp [readerFailure]) _ rfl
      | commands => exact .waiting (by simp [readerFailure]) _ rfl
      | replay withOffsets => exact rewind_heard now me e withOffsets timeout

theorem takeBatch_not_cancels (e : Endpoint SharedLog) (timeout : Nat)
    (restored : List QueuedCommand) (b : CommandBatch) (purpose : Purpose) (reason : String) :
    ¬ Cancels q (takeBatch me e timeout restored b purpose).1 reason := by
  rintro ⟨-, hdone⟩
  cases purpose with
  | batch => cases hdone
  | commands => cases hdone
  | replay withOffsets =>
      simp only [takeBatch] at hdone
      split at hdone <;> cases hdone

theorem polling_heard (purpose : Purpose) (timeout : Nat) (restored : List QueuedCommand)
    (p : Reader.Poll) :
    Heard (.use (.poll purpose timeout))
      ((Call.polling purpose timeout restored p).readerFailure now me e) e
      (step now me e (.polling purpose timeout restored p)) := by
  have htakes := Reader.stepPoll_takes e.client.schema now e.client.log e.client.reader p
  rcases hstep : e.client.reader.stepPoll e.client.schema now e.client.log p with ⟨progress, r⟩
  rw [hstep] at htakes
  rw [step_polling hstep]
  simp only [readerFailure, hstep]
  cases progress with
  | waiting p' => exact .waiting (by simp) _ (htakes.left (by simp))
  | done result =>
      cases result with
      | ok b =>
          refine .spared (by simp [failure?])
            (takeBatch_not_cancels _ timeout restored b purpose) ?_
          dsimp only
          rw [takeBatch_client]
          exact htakes.left (by simp)
      | error err =>
          exact failed_heard (htakes.congr (by simp))

/-- What any step of a call comes to in terms of the reader. -/
theorem step_heard (now : Nat) (me : TaskId) (e : Endpoint SharedLog) (hs : c.Serves q) :
    Heard q (c.readerFailure now me e) e (c.step now me e) := by
  cases c with
  | entered r =>
      cases hs
      exact enter_heard now me e q
  | sent w interrupts =>
      obtain ⟨id, cmd, rfl⟩ := hs
      refine .spared (by simp [readerFailure]) ?_ ?_
      · rintro reason ⟨⟨u, hu⟩, -⟩
        cases hu
      · rw [show (Call.step now me e (.sent w interrupts)).2 = e from
          awaitAck_endpoint now e w interrupts]
  | inLine u =>
      cases hs
      simp only [step]
      split
      next hhead => exact useReader_heard hhead u
      next hhead =>
        refine .waiting ?_ _ rfl
        cases u with
        | endOffset => simp [readerFailure, hhead]
        | poll purpose timeout => simp [readerFailure]
        | close => simp [readerFailure]
  | polling purpose timeout restored p =>
      cases hs
      exact polling_heard purpose timeout restored p
  | asking ps =>
      cases hs
      exact askEnd_heard now me e ps
  | closing handle closing => exact closeHandle_heard now me e handle closing

/-- A call of the reading side is cancelled just when its reader fails with a wakeup. -/
theorem step_cancelled_iff {u : Use} (hs : c.Serves (.use u)) (reason : String) :
    (c.step now me e).1 = .done (.error (.waitCancelled reason)) ↔
      c.readerFailure now me e = some .wakeup ∧ reason = LogError.wakeup.message := by
  cases step_heard now me e hs with
  | woken failed cancels before after =>
      rw [cancels.2]
      constructor
      · rintro h
        cases h
        exact ⟨failed, rfl⟩
      · rintro ⟨-, rfl⟩
        rfl
  | spared failed goesOn flag =>
      constructor
      · exact fun h => absurd ⟨⟨u, rfl⟩, h⟩ (goesOn reason)
      · exact fun h => absurd h.1 failed

end Call
end Channel

namespace Traffic

open Channel

variable {t : Traffic}

/-- The step has cancelled a call of the reading side. -/
def IsCancelled (d : Deed) : Prop :=
  ∃ reason, Call.Cancels d.request d.progress reason

/-- What is promised of the calls of the reading side that are cancelled: the channel was
interrupted before the first of them, since a number of interruptions, and again between any two. -/
structure Cancels (t : Traffic) (since : Nat) : Prop where
  first : ∀ d ∈ t.deeds, IsCancelled d → since < d.before.channel.interrupts
  between : t.deeds.Pairwise fun d d' => IsCancelled d → IsCancelled d' →
    d.before.channel.interrupts < d'.before.channel.interrupts

/-- What is kept along the moves: the calls in progress serve their requests, and a wakeup is
pending only if the channel was interrupted since the last call that was cancelled. -/
structure Counts (t : Traffic) (since : Nat) : Prop extends Cancels t since where
  serving : t.Serving
  start : since ≤ t.endpoint.channel.interrupts
  past : ∀ d ∈ t.deeds, d.before.channel.interrupts ≤ t.endpoint.channel.interrupts
  pending : t.endpoint.client.reader.isWoken = true → since < t.endpoint.channel.interrupts ∧
    ∀ d ∈ t.deeds, IsCancelled d → d.before.channel.interrupts < t.endpoint.channel.interrupts

variable {since : Nat}

/-- A step of a call takes the wakeup that it is cancelled by. -/
theorem Counts.advance (h : t.Counts since) {task : TaskId} {k : Ticket}
    (hk : t.tickets task = some k) (now : Nat) : (t.advance task now k).Counts since := by
  have hserving : (t.advance task now k).Serving := by
    have hstep := perform_serving h.serving (.step task now)
    simp only [Traffic.perform, hk] at hstep
    exact hstep
  have hsame : (t.advance task now k).endpoint.channel.interrupts =
      t.endpoint.channel.interrupts := Call.step_interrupts now task t.endpoint k.call
  have hheard := Call.step_heard now task t.endpoint (h.serving task k hk)
  have hpast : ∀ d ∈ (t.advance task now k).deeds,
      d.before.channel.interrupts ≤ t.endpoint.channel.interrupts := by
    rintro d hd
    rcases List.mem_append.1 hd with hd | hd
    · exact h.past d hd
    · rw [List.mem_singleton.1 hd]
      exact Nat.le_refl _
  cases hheard with
  | woken failed cancels before after =>
      obtain ⟨hsince, hlater⟩ := h.pending before
      refine ⟨⟨?_, ?_⟩, hserving, hsame ▸ h.start, hsame ▸ hpast, ?_⟩
      · rintro d hd hc
        rcases List.mem_append.1 hd with hd | hd
        · exact h.first d hd hc
        · rw [List.mem_singleton.1 hd]
          exact hsince
      · refine List.pairwise_append.2 ⟨h.between, List.pairwise_singleton _ _, ?_⟩
        rintro d hd d' hd' hc -
        rw [List.mem_singleton.1 hd']
        exact hlater d hd hc
      · rintro hw
        rw [show (t.advance task now k).endpoint.client.reader.isWoken = false from after] at hw
        cases hw
  | spared failed goesOn flag =>
      have hnew : ∀ d ∈ [t.deed task now k], ¬ IsCancelled d := by
        rintro d hd ⟨reason, hc⟩
        rw [List.mem_singleton.1 hd] at hc
        exact goesOn reason hc
      have hold : ∀ d ∈ (t.advance task now k).deeds, IsCancelled d → d ∈ t.deeds := by
        rintro d hd hc
        rcases List.mem_append.1 hd with hd | hd
        · exact hd
        · exact absurd hc (hnew d hd)
      refine ⟨⟨fun d hd hc => h.first d (hold d hd hc) hc, ?_⟩, hserving, hsame ▸ h.start,
        hsame ▸ hpast, ?_⟩
      · refine List.pairwise_append.2 ⟨h.between, List.pairwise_singleton _ _, ?_⟩
        exact fun d _ d' hd' _ hc => absurd hc (hnew d' hd')
      · rintro hw
        rw [show (t.advance task now k).endpoint.client.reader.isWoken = _ from flag] at hw
        obtain ⟨hsince, hlater⟩ := h.pending hw
        rw [hsame]
        exact ⟨hsince, fun d hd hc => hlater d (hold d hd hc) hc⟩

theorem Counts.perform (h : t.Counts since) (m : Move) : (t.perform m).Counts since := by
  have hserving := perform_serving h.serving m
  cases m with
  | enter r => exact ⟨⟨h.first, h.between⟩, hserving, h.start, h.past, h.pending⟩
  | onLog op => exact ⟨⟨h.first, h.between⟩, hserving, h.start, h.past, h.pending⟩
  | abandon task =>
      rw [Traffic.perform] at hserving ⊢
      split at hserving
      · exact ⟨⟨h.first, h.between⟩, hserving, h.start, h.past, h.pending⟩
      · exact h
  | step task now =>
      rw [Traffic.perform]
      split
      next k hk => exact h.advance hk now
      next => exact h
  | interrupt now =>
      refine ⟨⟨h.first, h.between⟩, hserving, Nat.le_succ_of_le h.start,
        fun d hd => Nat.le_succ_of_le (h.past d hd), fun _ => ⟨Nat.lt_succ_of_le h.start, ?_⟩⟩
      exact fun d hd _ => Nat.lt_succ_of_le (h.past d hd)

/-- Whatever happens on a channel on which no wakeup is pending, no two calls of the reading side
are cancelled by one interruption. -/
theorem run_cancels (hs : t.Serving) (hd : t.deeds = [])
    (hw : t.endpoint.client.reader.isWoken = false) (moves : List Move) :
    (t.run moves).Cancels t.endpoint.channel.interrupts := by
  have hstart : t.Counts t.endpoint.channel.interrupts := by
    refine ⟨⟨?_, ?_⟩, hs, Nat.le_refl _, ?_, ?_⟩
    · rw [hd]
      exact fun d hmem => absurd hmem List.not_mem_nil
    · rw [hd]
      exact List.Pairwise.nil
    · rw [hd]
      exact fun d hmem => absurd hmem List.not_mem_nil
    · rintro hwoken
      rw [hw] at hwoken
      cases hwoken
  exact (run_induction (P := fun t' => t'.Counts t.endpoint.channel.interrupts) hstart
    (fun _ m h => h.perform m) moves).toCancels

end Traffic
end ReplicatedLog
