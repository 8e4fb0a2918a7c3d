import ReplicatedLog.Proofs.Dispatch.Acknowledgments
import ReplicatedLog.Proofs.Dispatch.Sparing
import Mathlib.Data.List.Induction

/-!
# What an interruption cancels

An interruption of a channel cancels the sends through it that wait, and nothing else.

* `WasInterrupted`: while a task waited for its append its channel was interrupted, and the outcome
  was not there when the task went on;
* `Ends`: a send that can go on and is over then, with the outcome if it is there, and otherwise
  because it was interrupted;
* `run_interrupts_waiting`: nobody else is told that he was interrupted, everybody who waits at an
  interruption ends, and all others are spared.

This rests on a send being one move until it waits.  Between the single accesses of `Exchange`, an
interruption may come when a send has taken note of the earlier ones and has not yet appended:
such a send is told of an interruption at which it did not wait.
-/

namespace ReplicatedLog

open Channel

namespace Dispatch

section Counting

variable {d : Dispatch} {task : TaskId} {i n : Nat} {wait : Log.Wait}

theorem interrupts_perform (d : Dispatch) {m : Move} (hm : m ≠ .interrupt i) :
    ((d.perform m).wires i).channel.interrupts = (d.wires i).channel.interrupts := by
  by_cases hany : ∃ j, m = .interrupt j
  · obtain ⟨j, rfl⟩ := hany
    have hother : i ≠ j := fun h => hm (by rw [h])
    rw [interrupts_interrupt, if_neg hother]
  · rw [perform_wires d fun j hj => hany ⟨j, hj⟩]

theorem le_interrupts_perform (d : Dispatch) (m : Move) (i : Nat) :
    (d.wires i).channel.interrupts ≤ ((d.perform m).wires i).channel.interrupts := by
  by_cases hm : m = .interrupt i
  · rw [hm, interrupts_interrupt, if_pos rfl]
    exact Nat.le_succ _
  · exact Nat.le_of_eq (interrupts_perform d hm).symm

theorem le_interrupts_run (d : Dispatch) (moves : List Move) (i : Nat) :
    (d.wires i).channel.interrupts ≤ ((d.run moves).wires i).channel.interrupts := by
  induction moves generalizing d with
  | nil => exact Nat.le_refl _
  | cons m moves ih => exact Nat.le_trans (le_interrupts_perform d m i) (ih (d.perform m))

/-- Nobody has noted more interruptions of his channel than there were. -/
def Notes (d : Dispatch) : Prop :=
  ∀ task i wait n, d.waiters task = some (.sending i wait n) → n ≤ (d.wires i).channel.interrupts

theorem Notes.perform (h : d.Notes) (m : Move) : (d.perform m).Notes := by
  rintro task i wait n hw
  refine Nat.le_trans ?_ (le_interrupts_perform d m i)
  rcases perform_waiters d m hw with hold | hbegins
  · exact h task i wait n hold
  · exact Nat.le_of_eq (hbegins.noted i wait n rfl)

theorem run_notes (settings : Log.Settings) (writers : Nat → Writer) (wires : Nat → Wire)
    (moves : List Move) : ((new settings writers wires).run moves).Notes := by
  refine run_induction (P := Notes) ?_ (fun d m h => h.perform m) moves
  nofun

end Counting

section Ending

variable {d : Dispatch} {task : TaskId} {i n : Nat} {wait : Log.Wait} {w : Waiter}

/-- Who waits goes on to do so until he goes on himself or gives up. -/
theorem Balanced.waits_perform (h : d.Balanced) {m : Move} (hw : d.waiters task = some w)
    (hresume : m ≠ .resume task) (hleave : m ≠ .leave task) :
    (d.perform m).waiters task = some w := by
  have hother : task ≠ d.next := Nat.ne_of_lt (h.lt_next hw)
  cases perform_turn d m with
  | still waiters told next => rw [waiters, hw]
  | enter w' s sends awaits noted waiters told next wires =>
      rw [waiters, Function.update_of_ne hother, hw]
  | refuse waiters told next => rw [waiters, Function.update_of_ne hother, hw]
  | resume id w' x move waits due after =>
      have hid : task ≠ id := by
        rintro rfl
        exact hresume move
      rw [after, waiters_tell, Function.update_of_ne hid, hw]
  | leave id move waiters told next =>
      have hid : task ≠ id := by
        rintro rfl
        exact hleave move
      rw [waiters, Function.update_of_ne hid, hw]

theorem Balanced.waits_run (h : d.Balanced) {moves : List Move} (hw : d.waiters task = some w)
    (hresume : .resume task ∉ moves) (hleave : .leave task ∉ moves) :
    (d.run moves).waiters task = some w := by
  induction moves generalizing d with
  | nil => exact hw
  | cons m moves ih =>
      have hm : (d.perform m).waiters task = some w := by
        refine h.waits_perform hw ?_ ?_
        · rintro rfl
          exact hresume List.mem_cons_self
        · rintro rfl
          exact hleave List.mem_cons_self
      refine ih (h.perform m) hm ?_ ?_
      · exact fun hmem => hresume (List.mem_cons_of_mem _ hmem)
      · exact fun hmem => hleave (List.mem_cons_of_mem _ hmem)

/-- What a send that was interrupted comes to. -/
def verdict (d : Dispatch) (wait : Log.Wait) : Channel.Result :=
  match d.log.outcome wait with
  | some o => answer o
  | none => .error .interrupted

/-- A send waits that can go on, and it is over when it does so. -/
structure Ends (d : Dispatch) (task : TaskId) (i : Nat) (wait : Log.Wait) (n : Nat) : Prop where
  waits : d.waiters task = some (.sending i wait n)
  ready : Call.ready 0 task (d.endpoint i) (.sent wait n) = true
  ends : d.perform (.resume task) = d.tell task (.result (d.verdict wait))

theorem ends_of_interrupted (hw : d.waiters task = some (.sending i wait n))
    (hn : n < (d.wires i).channel.interrupts) : d.Ends task i wait n := by
  have hsince : (d.wires i).channel.interrupts ≠ n := Nat.ne_of_gt hn
  refine ⟨hw, ?_, ?_⟩
  · have hcount : (d.endpoint i).channel.interrupts ≠ n := hsince
    simp [Call.ready, hcount]
  · cases ho : d.log.outcome wait with
    | some o =>
        have houtcome : d.log.outcome (Waiter.sending i wait n).wait = some o := ho
        rw [perform_resume_told d hw houtcome, verdict, ho]
        rfl
    | none =>
        rw [perform_resume_sending d hw ho, if_pos hsince, verdict, ho]

/-- A send that waits at an interruption of its channel ends when it goes on. -/
theorem Balanced.ends (h : d.Balanced) (hnotes : d.Notes) {later : List Move}
    (hw : d.waiters task = some (.sending i wait n)) (hresume : .resume task ∉ later)
    (hleave : .leave task ∉ later) :
    ((d.perform (.interrupt i)).run later).Ends task i wait n := by
  have hnow : (d.perform (.interrupt i)).waiters task = some (.sending i wait n) := hw
  refine ends_of_interrupted ((h.perform (.interrupt i)).waits_run hnow hresume hleave) ?_
  calc n < (d.wires i).channel.interrupts + 1 := Nat.lt_succ_of_le (hnotes task i wait n hw)
    _ = ((d.perform (.interrupt i)).wires i).channel.interrupts := by
        rw [interrupts_interrupt, if_pos rfl]
    _ ≤ (((d.perform (.interrupt i)).run later).wires i).channel.interrupts :=
        le_interrupts_run _ later i

end Ending

section Causes

variable {d : Dispatch} {task : TaskId} {i n : Nat} {wait : Log.Wait} {w : Waiter}

/-- An outcome is never taken for an interruption. -/
theorem Balanced.answer_ne (h : d.Balanced) (hw : d.waiters task = some w) {o : Outcome}
    (ho : d.log.outcome w.wait = some o) : answer o ≠ .error .interrupted := by
  obtain ⟨s, hs, hawaits⟩ := h.waits task w hw
  rw [← hawaits.wait] at ho
  cases h.stands s hs with
  | failed cause landed wait =>
      rw [wait] at ho
      cases ho
      nofun
  | landed q e k landed wait place =>
      obtain ⟨there, hthere, -⟩ := h.tallies.place place
      rw [wait, h.tallies.outcome place hthere] at ho
      cases there with
      | completed =>
          cases ho
          nofun
      | parked => cases ho
      | dropped =>
          cases ho
          simp [answer, AckError.abandoned, Error.ofAck, Error.interrupted]

/-- The channel of a task was interrupted while the task waited for its append, and the outcome was
not there when it went on. -/
inductive WasInterrupted (start : Dispatch) (task : TaskId) (moves : List Move) : Prop
  | intro (i : Nat) (wait : Log.Wait) (n : Nat) (before between later : List Move)
      (split : moves = before ++ .interrupt i :: (between ++ .resume task :: later))
      (issued : ∃ s ∈ (start.run before).sends, s.task = task ∧ s.wire = some i ∧ s.wait = wait)
      (waited : (start.run before).waiters task = some (.sending i wait n))
      (waits : (start.run (before ++ .interrupt i :: between)).waiters task =
        some (.sending i wait n))
      (missing : (start.run (before ++ .interrupt i :: between)).log.outcome wait = none)

theorem WasInterrupted.append {start : Dispatch} {moves : List Move}
    (h : WasInterrupted start task moves) (more : List Move) :
    WasInterrupted start task (moves ++ more) := by
  obtain ⟨i, wait, n, before, between, later, split, issued, waited, waits, missing⟩ := h
  refine ⟨i, wait, n, before, between, later ++ more, ?_, issued, waited, waits, missing⟩
  simp [split]

end Causes

section Runs

variable (settings : Log.Settings) (writers : Nat → Writer) (wires : Nat → Wire)

/-- Whoever has missed an interruption of his channel has waited at it. -/
theorem run_missed (moves : List Move) {task : TaskId} {i n : Nat} {wait : Log.Wait}
    (hw : ((new settings writers wires).run moves).waiters task = some (.sending i wait n))
    (hn : (((new settings writers wires).run moves).wires i).channel.interrupts ≠ n) :
    ∃ before between, moves = before ++ .interrupt i :: between ∧
      ((new settings writers wires).run before).waiters task = some (.sending i wait n) := by
  induction moves using List.reverseRecOn with
  | nil => cases hw
  | append_singleton moves m ih =>
      rw [run_concat] at hw hn
      rcases perform_waiters _ m hw with hold | hbegins
      · by_cases hcount :
          (((new settings writers wires).run moves).wires i).channel.interrupts = n
        · -- it was this move
          have hm : m = .interrupt i := by
            by_contra hm
            exact hn ((interrupts_perform _ hm).trans hcount)
          exact ⟨moves, [], by rw [hm], hold⟩
        · obtain ⟨before, between, hsplit, hwaited⟩ := ih hold hcount
          refine ⟨before, between ++ [m], ?_, hwaited⟩
          simp [hsplit]
      · refine absurd ?_ hn
        rw [hbegins.wires]
        exact (hbegins.noted i wait n rfl).symm

/-- Whoever is told that he was interrupted was interrupted. -/
theorem run_told (moves : List Move) {task : TaskId}
    (htold : (task, .result (.error .interrupted)) ∈
      ((new settings writers wires).run moves).told) :
    WasInterrupted (new settings writers wires) task moves := by
  induction moves using List.reverseRecOn with
  | nil => cases htold
  | append_singleton moves m ih =>
      have h := run_balanced settings writers wires moves
      rw [run_concat] at htold
      rcases perform_told _ m with hsame | ⟨x, hmore, -, hx⟩
      · exact (ih (hsame ▸ htold)).append [m]
      · rcases List.mem_append.1 (hmore ▸ htold) with hold | hnow
        · exact (ih hold).append [m]
        · rw [← List.mem_singleton.1 hnow] at hx
          rcases hx with ⟨hclosed, -⟩ | ⟨w, hw, hdue, rfl⟩
          · cases hclosed
          · generalize hr : Told.result (.error .interrupted) = r at hdue
            cases hdue with
            | @outcome w o there =>
                cases w with
                | plain wait => cases hr
                | sending i wait n =>
                    exact absurd (Told.result.inj hr).symm (h.answer_ne hw there)
            | @interrupted i wait n missing since =>
                obtain ⟨before, between, hsplit, hwaited⟩ :=
                  run_missed settings writers wires moves hw since
                obtain ⟨s, hs, hawaits⟩ :=
                  (run_balanced settings writers wires before).waits _ _ hwaited
                refine ⟨i, wait, n, before, between, [], ?_, ?_, hwaited, ?_, ?_⟩
                · simp [hsplit]
                · exact ⟨s, hs, hawaits.task, hawaits.wire, hawaits.wait⟩
                · rw [← hsplit]
                  exact hw
                · rw [← hsplit]
                  exact missing

/-- An interruption, and what is done later, spares all who do not wait for a send through the
channel when it comes. -/
structure Spares (d : Dispatch) (i : Nat) (later : List Move) : Prop where
  log : ((d.perform (.interrupt i)).run later).log = (d.run later).log
  sends : ((d.perform (.interrupt i)).run later).sends = (d.run later).sends
  waits : ∀ task, d.sendsOn i task = false →
    (((d.perform (.interrupt i)).run later).waiters task).map Waiter.wait =
      ((d.run later).waiters task).map Waiter.wait
  told : ((d.perform (.interrupt i)).run later).told.filter (fun x => !d.sendsOn i x.1) =
    (d.run later).told.filter (fun x => !d.sendsOn i x.1)

theorem spares (d : Dispatch) (i : Nat) (later : List Move) : d.Spares i later := by
  have h := (interrupt_alike d i).run later
  refine ⟨h.log, h.sends, fun task htask => ?_, h.told⟩
  rw [h.waiters task htask, Option.map_map]
  congr 1
  exact funext (Waiter.wait_later i)

/-- An interruption cancels exactly the sends that wait: a send fails of it only if its own channel
was interrupted while it waited, every send of the channel that waits at an interruption ends when
it goes on, and all others are spared. -/
theorem run_interrupts_waiting (moves : List Move) :
    let start := new settings writers wires
    (∀ task, (task, .result (.error .interrupted)) ∈ (start.run moves).told →
      WasInterrupted start task moves) ∧
    ∀ i later,
      (∀ task wait n, (start.run moves).waiters task = some (.sending i wait n) →
        .resume task ∉ later → .leave task ∉ later →
          (((start.run moves).perform (.interrupt i)).run later).Ends task i wait n) ∧
      (start.run moves).Spares i later := by
  have h := run_balanced settings writers wires moves
  have hnotes := run_notes settings writers wires moves
  refine ⟨fun task => run_told settings writers wires moves, fun i later => ⟨?_, spares _ i later⟩⟩
  exact fun task wait n hw hresume hleave => h.ends hnotes hw hresume hleave

end Runs

section Samples

/-- Two channels send while acknowledgments are held back; the first one is interrupted, then sends
once more, and is interrupted again before its acknowledgment is there. -/
def interruptedMoves : List Move :=
  [.hold, sampleSend 0, sampleSend 1, .interrupt 0, sampleSend 0, .resume 0, .resume 1, .resume 2,
    .interrupt 0, .release, .resume 2, .resume 1]

/-- In the sample the first send is cancelled, and the others end well. -/
theorem run_interrupts_waiting_sample :
    let start := new {} (fun _ => {})
      fun i => { schema := .json, channel.partition := ⟨if i = 0 then "one" else "other", 0⟩ }
    (start.run interruptedMoves).told =
        [(0, .result (.error .interrupted)), (2, .result (.ok (.position ⟨"one", 0, 1⟩))),
          (1, .result (.ok (.position ⟨"other", 0, 0⟩)))] ∧
      WasInterrupted start 0 interruptedMoves := by
  refine ⟨rfl, (run_interrupts_waiting {} _ _ interruptedMoves).1 0 ?_⟩
  exact List.mem_cons_self

end Samples

end Dispatch
end ReplicatedLog
