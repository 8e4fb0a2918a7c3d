import ReplicatedLog.Proofs.Dispatch.Basic

/-!
# Whom an interruption spares

Two runs that differ in one interruption of a channel are compared.

* `Alike`: the log is the same, and so is all that is told to those whom the interruption does not
  hit; what they wait for is the same, too;
* `Alike.perform`: this is kept by every move that is made in both;
* `interrupt_alike`: it holds after an interruption, which hits nobody but those who wait for a send
  through that channel.
-/

namespace ReplicatedLog

/-- A channel as a send sees it, after so many interruptions more. -/
structure Wire.Matches (w v : Wire) (more : Nat) : Prop where
  schema : v.schema = w.schema
  writer : v.writer = w.writer
  channel : v.channel = { w.channel with interrupts := w.channel.interrupts + more }

namespace Dispatch

section Likeness

/-- How many interruptions more a channel has had. -/
def extra (i j : Nat) : Nat :=
  if j = i then 1 else 0

/-- A waiter as it would be after one interruption more of a channel. -/
def Waiter.later (i : Nat) : Waiter → Waiter
  | plain wait => plain wait
  | sending j wait n => sending j wait (n + extra i j)

theorem Waiter.wait_later (i : Nat) (w : Waiter) : (w.later i).wait = w.wait := by
  cases w <;> rfl

/-- Whether a task waits for a send through a channel. -/
def sendsOn (d : Dispatch) (i : Nat) (task : TaskId) : Bool :=
  match d.waiters task with
  | some (.sending j _ _) => j == i
  | _ => false

/-- The second run is as the first one but for one interruption of a channel, which concerns nobody
but those whom it hits. -/
structure Alike (i : Nat) (hit : TaskId → Bool) (d d' : Dispatch) : Prop where
  log : d'.log = d.log
  writers : d'.writers = d.writers
  next : d'.next = d.next
  sends : d'.sends = d.sends
  wires : ∀ j, (d.wires j).Matches (d'.wires j) (extra i j)
  waiters : ∀ task, hit task = false → d'.waiters task = (d.waiters task).map (Waiter.later i)
  told : d'.told.filter (fun x => !hit x.1) = d.told.filter (fun x => !hit x.1)

variable {i : Nat} {hit : TaskId → Bool} {d d' : Dispatch} {task : TaskId}

/-- An interruption hits those who wait for a send through the channel. -/
theorem interrupt_alike (d : Dispatch) (i : Nat) :
    Alike i (d.sendsOn i) d (d.perform (.interrupt i)) := by
  refine ⟨rfl, rfl, rfl, rfl, fun j => ?_, fun task htask => ?_, rfl⟩
  · have hput : (d.perform (.interrupt i)).wires =
        Function.update d.wires i (.ofEndpoint ((d.endpoint i).interrupt 0)) := rfl
    rw [hput, extra]
    by_cases hj : j = i
    · subst hj
      rw [Function.update_self, if_pos rfl]
      exact ⟨rfl, rfl, rfl⟩
    · rw [Function.update_of_ne hj, if_neg hj]
      exact ⟨rfl, rfl, rfl⟩
  · have hsame : (d.perform (.interrupt i)).waiters = d.waiters := rfl
    rw [hsame]
    rw [sendsOn] at htask
    rcases hw : d.waiters task with _ | ⟨wait⟩ | ⟨j, wait, n⟩
    · rfl
    · rfl
    · rw [hw] at htask
      have hj : j ≠ i := by simpa using htask
      simp [Waiter.later, extra, hj]

end Likeness

section Keeping

variable {i : Nat} {hit : TaskId → Bool} {d d' : Dispatch} {task : TaskId}

theorem Alike.onLog (h : Alike i hit d d') (f : Log → Log) :
    Alike i hit { d with log := f d.log } { d' with log := f d'.log } := by
  refine ⟨?_, h.writers, h.next, h.sends, h.wires, h.waiters, h.told⟩
  rw [h.log]

/-- Both have the same change of their waiters. -/
theorem Alike.update (h : Alike i hit d d') (task : TaskId) (w : Option Waiter) :
    ∀ id, hit id = false → Function.update d'.waiters task (w.map (Waiter.later i)) id =
      (Function.update d.waiters task w id).map (Waiter.later i) := by
  rintro id hid
  by_cases htask : id = task
  · subst htask
    rw [Function.update_self, Function.update_self]
  · rw [Function.update_of_ne htask, Function.update_of_ne htask]
    exact h.waiters id hid

theorem Alike.tell (h : Alike i hit d d') (task : TaskId) (x : Told) :
    Alike i hit (d.tell task x) (d'.tell task x) := by
  refine ⟨h.log, h.writers, h.next, h.sends, h.wires, h.update task none, ?_⟩
  rw [Dispatch.tell, Dispatch.tell, List.filter_append, List.filter_append, h.told]

/-- What the ones who are hit are told makes no difference to the others. -/
structure Concerns (hit : TaskId → Bool) (d e : Dispatch) : Prop where
  log : e.log = d.log
  writers : e.writers = d.writers
  next : e.next = d.next
  sends : e.sends = d.sends
  wires : e.wires = d.wires
  waiters : ∀ task, hit task = false → e.waiters task = d.waiters task
  told : e.told.filter (fun x => !hit x.1) = d.told.filter (fun x => !hit x.1)

theorem resume_concerns (d : Dispatch) (htask : hit task = true) :
    Concerns hit d (d.perform (.resume task)) := by
  rcases perform_resume d task with hstill | ⟨w, x, -, -, htold⟩
  · rw [hstill]
    exact ⟨rfl, rfl, rfl, rfl, rfl, fun _ _ => rfl, rfl⟩
  · rw [htold]
    refine ⟨rfl, rfl, rfl, rfl, rfl, fun id hid => ?_, ?_⟩
    · have hne : id ≠ task := by
        rintro rfl
        rw [htask] at hid
        cases hid
      rw [waiters_tell, Function.update_of_ne hne]
    · simp [Dispatch.tell, htask]

theorem Alike.concerns {e e' : Dispatch} (h : Alike i hit d d') (hd : Concerns hit d e)
    (hd' : Concerns hit d' e') : Alike i hit e e' := by
  constructor
  · rw [hd'.log, h.log, hd.log]
  · rw [hd'.writers, h.writers, hd.writers]
  · rw [hd'.next, h.next, hd.next]
  · rw [hd'.sends, h.sends, hd.sends]
  · rw [hd'.wires, hd.wires]
    exact h.wires
  · rintro task htask
    rw [hd'.waiters task htask, hd.waiters task htask]
    exact h.waiters task htask
  · rw [hd'.told, hd.told]
    exact h.told

/-- A new task has issued an append and waits. -/
theorem Alike.enter (h : Alike i hit d d') (w : Waiter) (s : Sent) (log : Log) :
    Alike i hit
      { d with
        log
        waiters := Function.update d.waiters d.next (some w)
        next := d.next + 1
        sends := d.sends ++ [s] }
      { d' with
        log
        waiters := Function.update d'.waiters d.next (some (w.later i))
        next := d.next + 1
        sends := d.sends ++ [s] } :=
  ⟨rfl, h.writers, rfl, rfl, h.wires, h.update d.next (some w), h.told⟩

theorem Alike.sendOn (h : Alike i hit d d') (j : Nat) (id : CommandId) (c : Command) :
    Alike i hit (d.perform (.sendOn j id c)) (d'.perform (.sendOn j id c)) := by
  obtain ⟨hschema, hwriter, hchannel⟩ := h.wires j
  simp only [perform_sendOn, hchannel, hschema, hwriter, h.log, h.next, h.sends]
  split
  · have htold := h.tell d.next (.result (.error .closed))
    exact ⟨htold.log, htold.writers, rfl, htold.sends, htold.wires, htold.waiters, htold.told⟩
  · exact h.enter _ _ _

/-- A task goes on that is not hit. -/
theorem Alike.resume (h : Alike i hit d d') (htask : hit task = false) :
    Alike i hit (d.perform (.resume task)) (d'.perform (.resume task)) := by
  have hwaits := h.waiters task htask
  cases hw : d.waiters task with
  | none =>
      rw [hw, Option.map_none] at hwaits
      simp only [Dispatch.perform, hw, hwaits]
      exact h
  | some w =>
      rw [hw, Option.map_some] at hwaits
      cases ho : d.log.outcome w.wait with
      | some o =>
          have ho' : d'.log.outcome (w.later i).wait = some o := by
            rw [h.log, Waiter.wait_later, ho]
          have hhears : (w.later i).hears o = w.hears o := by
            cases w <;> rfl
          rw [perform_resume_told d hw ho, perform_resume_told d' hwaits ho', hhears]
          exact h.tell task _
      | none =>
          cases w with
          | plain wait =>
              have ho' : d'.log.outcome wait = none := h.log ▸ ho
              rw [perform_resume_plain d hw ho, perform_resume_plain d' hwaits ho']
              exact h
          | sending j wait n =>
              have ho' : d'.log.outcome wait = none := h.log ▸ ho
              have hcount : (d'.wires j).channel.interrupts = n + extra i j ↔
                  (d.wires j).channel.interrupts = n := by
                rw [(h.wires j).channel]
                exact Nat.add_right_cancel_iff
              rw [perform_resume_sending d hw ho, perform_resume_sending d' hwaits ho']
              simp only [ne_eq, hcount]
              split
              · exact h.tell task _
              · exact h

theorem Alike.interrupt (h : Alike i hit d d') (j : Nat) :
    Alike i hit (d.perform (.interrupt j)) (d'.perform (.interrupt j)) := by
  refine ⟨h.log, h.writers, h.next, h.sends, fun k => ?_, h.waiters, h.told⟩
  change (Function.update d.wires j _ k).Matches (Function.update d'.wires j _ k) _
  by_cases hk : k = j
  · subst hk
    obtain ⟨hschema, hwriter, hchannel⟩ := h.wires k
    rw [Function.update_self, Function.update_self]
    refine ⟨hschema, hwriter, ?_⟩
    simp [Wire.ofEndpoint, Endpoint.interrupt, endpoint, Wire.endpoint, hchannel,
      Nat.add_right_comm]
  · rw [Function.update_of_ne hk, Function.update_of_ne hk]
    exact h.wires k

/-- What is alike stays so when the same is done in both runs. -/
theorem Alike.perform (h : Alike i hit d d') (m : Move) :
    Alike i hit (d.perform m) (d'.perform m) := by
  cases m with
  | createTopic topic n => exact h.onLog fun log => (log.createTopic topic n).2
  | failNext cause => exact h.onLog fun log => log.failNext cause
  | hold => exact h.onLog fun log => log.hold
  | release => exact h.onLog fun log => log.release.2
  | abandon => exact h.onLog fun log => log.abandon.2
  | closeWriter j =>
      refine ⟨h.log, ?_, h.next, h.sends, h.wires, h.waiters, h.told⟩
      simp only [Dispatch.perform, h.writers]
  | send j schema topic index key value =>
      have hsend := h.enter (.plain ((d.writers j).send schema d.log topic index key value).1)
        ⟨d.next, none, ((d.writers j).send schema d.log topic index key value).1,
          (d.writers j).landing? schema d.log topic index key value⟩
        ((d.writers j).send schema d.log topic index key value).2
      simp only [Dispatch.perform, h.log, h.writers, h.next, h.sends]
      exact ⟨hsend.log, rfl, hsend.next, hsend.sends, hsend.wires, hsend.waiters, hsend.told⟩
  | sendOn j id c => exact h.sendOn j id c
  | resume task =>
      cases htask : hit task with
      | false => exact h.resume htask
      | true =>
          -- whether it is told something, and what, is different in the two runs
          exact h.concerns (resume_concerns d htask) (resume_concerns d' htask)
  | leave task =>
      exact ⟨h.log, h.writers, h.next, h.sends, h.wires, h.update task none, h.told⟩
  | interrupt j => exact h.interrupt j

theorem Alike.run (h : Alike i hit d d') (moves : List Move) :
    Alike i hit (d.run moves) (d'.run moves) := by
  induction moves generalizing d d' with
  | nil => exact h
  | cons m moves ih => exact ih (h.perform m)

end Keeping

end Dispatch
end ReplicatedLog
