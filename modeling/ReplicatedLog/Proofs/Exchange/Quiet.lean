import ReplicatedLog.Proofs.Exchange.Soundness

/-!
# Nobody waits in vain

When no task can go on before the clock does, none of them waits for something that
has happened already.

* `Sound.quiet_poll`, `Sound.quiet_send`: what a poll and a send wait for then;
* `SendView.Tells`, from the sends: whoever has taken note of at most so many interruptions is
  told of a later one, or is about to be.  `tells_run`: that stays so after any moves, and
  `tells_of_interrupt`: it is so after an interruption;
* `run_loses_no_wakeup`: no poll waits with an entry unread, a wakeup pending or its
  reader closed, and no send with its acknowledgment settled or after an
  interruption.
-/

namespace ReplicatedLog
namespace Exchange

section Waiting

variable {x : Exchange} {t : TaskId} {κ ν : Type}

theorem Quiet.not_announcing (hq : x.Quiet) : ¬ x.Announcing := by
  rintro ⟨t, job, hjob, hannounces⟩
  have hready := hq t job hjob
  cases job with
  | send o schema out p =>
      cases p with
      | announcing n q => cases hready
      | _ => cases hannounces
  | _ => cases hannounces

theorem Quiet.not_owes (hq : x.Quiet) (e : Errand) : ¬ x.Owes e := by
  rintro ⟨t, job, hjob, hmem⟩
  have hready := hq t job hjob
  cases job with
  | errands todo => cases hready
  | _ => cases hmem

/-- A poll that cannot go on has found nothing and has nothing to go on for. -/
theorem Sound.quiet_poll (h : x.Sound) (hq : x.Quiet) {i : Nat} {schema : Schema κ ν}
    {p : Polling κ ν} (hjob : x.jobs t = some (.poll i schema p)) :
    (∃ deadline seen, p = .watching deadline seen .parked ∧ x.now < deadline) ∧
      ¬ (x.inlets i).reader.HasUnread x.log ∧ (x.inlets i).reader.isWoken = false ∧
      (x.inlets i).reader.isClosed = false := by
  have hp := h.polls t κ ν i schema p hjob
  have hready : p.ready x.now x.log (x.inlets i) = false := hq t _ hjob
  cases p with
  | entering timeout => cases hready
  | entered timeout => cases hready
  | looping deadline => cases hready
  | listening deadline appends => cases hready
  | watching deadline seen w =>
      cases w with
      | locking =>
          -- whoever holds the positions can go on
          cases hholder : (x.inlets i).holder with
          | none => simp [Polling.ready, hholder] at hready
          | some u =>
              obtain ⟨κ', ν', schema', p', hjob', hreads⟩ := h.holders i u hholder
              have hready' : p'.ready x.now x.log (x.inlets i) = false := hq u _ hjob'
              cases p' with
              | watching deadline seen w =>
                  cases w with
                  | reading found rest => cases hready'
                  | missing found p rest => cases hready'
                  | _ => cases hreads
              | _ => cases hreads
      | parked =>
          have hwait : seen = Reader.seenNow x.log (x.inlets i).reader ∧ x.now < deadline := by
            simpa [Polling.ready, Reader.pollReady] using hready
          obtain ⟨hseen, htime⟩ := hwait
          have hcall : ¬ (x.view i).TellsCall seen := by
            rintro (hlt | hcalling)
            · rw [hseen] at hlt
              exact Nat.lt_irrefl _ hlt
            · exact hq.not_owes _ hcalling
          obtain ⟨-, -, hunread, hclosed, hwoken⟩ := hp
          refine ⟨⟨deadline, seen, rfl, htime⟩, ?_, ?_, ?_⟩
          · rintro ⟨p, n, hmem, hlt⟩
            rcases hunread ⟨p, n, hmem, List.not_mem_nil, hlt⟩ with hlt | hannouncing
            · rw [hseen] at hlt
              exact Nat.lt_irrefl _ hlt
            · exact hq.not_announcing hannouncing
          · exact Bool.eq_false_iff.2 fun h => hcall (hwoken h)
          · exact Bool.eq_false_iff.2 fun h => hcall (hclosed h)
      | _ => cases hready

/-- A send that cannot go on waits for an acknowledgment that is held. -/
theorem Sound.quiet_send (h : x.Sound) (hq : x.Quiet) {o : Nat} {schema : Schema κ ν}
    {out : Outgoing κ ν} {p : Sending} (hjob : x.jobs t = some (.send o schema out p)) :
    ∃ id q, p = .sent (x.outlets o).interrupts (.ack id) ∧
      x.log.ledger[id]? = some .outstanding ∧ (id, q) ∈ x.log.held := by
  have hp := h.sends t κ ν o schema out p hjob
  have hready : p.ready (x.outlets o) x.log = false := hq t _ hjob
  cases p with
  | sent n w =>
      have hwait : x.log.outcome w = none ∧ (x.outlets o).interrupts = n := by
        simpa [Sending.ready] using hready
      obtain ⟨hout, rfl⟩ := hwait
      cases w with
      | known outcome => cases hout
      | ack id =>
          obtain ⟨hid, hawaits⟩ := hp.awaits _ id rfl
          have houtstanding : x.log.ledger[id]? = some .outstanding := by
            change id < x.log.ledger.size at hid
            simp only [Log.outcome, Array.getElem?_eq_getElem hid] at hout ⊢
            cases ha : x.log.ledger[id] with
            | outstanding => rfl
            | resolved outcome => simp [ha] at hout
            | dropped => simp [ha] at hout
          rcases hawaits houtstanding with ⟨q, hq'⟩ | ⟨q, hsettling⟩
          · exact ⟨id, q, rfl, houtstanding, hq'⟩
          · exact absurd hsettling (hq.not_owes _)
  | _ => cases hready

end Waiting

section Interruptions

variable {x : Exchange} {t : TaskId} {κ ν : Type} {o : Nat} {schema : Schema κ ν}
  {out : Outgoing κ ν}

theorem next_runErrand (e : Errand) : (x.runErrand e).next = x.next := by
  cases e <;> rfl

theorem next_advance (job : Job) : (x.advance t job).next = x.next := by
  cases job with
  | poll i schema p => rfl
  | send o schema out p => rfl
  | errands todo =>
      cases todo with
      | nil => rfl
      | cons e todo => exact next_runErrand e

theorem next_perform (m : Move) : x.next ≤ (x.perform m).next := by
  cases m with
  | step t =>
      simp only [perform]
      split
      · split
        · exact Nat.le_of_eq (next_advance _).symm
        · exact Nat.le_refl _
      · exact Nat.le_refl _
  | _ =>
      simp only [perform]
      repeat' split
      all_goals first | exact Nat.le_refl _ | exact Nat.le_succ _

theorem jobs_advance_of_ne {u : TaskId} (job : Job) (h : t ≠ u) :
    (x.advance u job).jobs t = x.jobs t := by
  cases job with
  | poll i schema p => exact Function.update_of_ne h ..
  | send o schema out p => exact Function.update_of_ne h ..
  | errands todo => cases todo <;> exact Function.update_of_ne h ..

/-- A task that is there goes on, is over, or is left as it is. -/
theorem jobs_perform (m : Move) (ht : t < x.next) :
    (x.perform m).jobs t = x.jobs t ∨ (x.perform m).jobs t = none ∨
      ∃ job, x.jobs t = some job ∧ (x.perform m).jobs t = (x.advance t job).jobs t := by
  have hnew : ∀ job, Function.update x.jobs x.next (some job) t = x.jobs t :=
    fun job => Function.update_of_ne (Nat.ne_of_lt ht) ..
  cases m with
  | step u =>
      by_cases hu : t = u
      · subst hu
        cases hjob : x.jobs t with
        | none => exact Or.inl (by simp [perform, hjob])
        | some job =>
            by_cases hready : job.ready x
            · exact Or.inr (Or.inr ⟨job, rfl, by simp [perform, hjob, hready]⟩)
            · exact Or.inl (by simp [perform, hjob, hready])
      · refine Or.inl ?_
        simp only [perform]
        split
        · split
          · exact jobs_advance_of_ne _ hu
          · rfl
        · rfl
  | leave u =>
      simp only [perform]
      split
      · split
        · by_cases hu : t = u
          · subst hu
            exact Or.inr (Or.inl (Function.update_self ..))
          · exact Or.inl (Function.update_of_ne hu ..)
        · exact Or.inl rfl
      · exact Or.inl rfl
  | _ =>
      refine Or.inl ?_
      simp only [perform]
      repeat' split
      all_goals first | rfl | exact hnew _

/-- A send that is there after a move was there before, and has noted what it had noted. -/
theorem noted_perform (m : Move) (ht : t < x.next) {p' : Sending}
    (h : (x.perform m).jobs t = some (.send o schema out p')) :
    ∃ p, x.jobs t = some (.send o schema out p) ∧ ∀ n, p.noted? = some n → p'.noted? = some n := by
  rcases jobs_perform m ht with hsame | hnone | ⟨job, hjob, hnext⟩
  · exact ⟨p', hsame ▸ h, fun _ hn => hn⟩
  · rw [hnone] at h
    cases h
  · rw [hnext] at h
    cases job with
    | poll i schema' p =>
        have hself : (x.advance t (.poll i schema' p)).jobs t =
            left (.poll i schema') (p.step schema' x.now x.log t (x.inlets i)).1 :=
          Function.update_self ..
        rw [hself] at h
        cases hprogress : (p.step schema' x.now x.log t (x.inlets i)).1 <;>
          rw [hprogress] at h <;> cases h
    | errands todo =>
        cases todo <;> simp [advance] at h
    | send o' schema' out' p =>
        have hself : (x.advance t (.send o' schema' out' p)).jobs t =
            left (.send o' schema' out') (p.step schema' out' (x.outlets o') x.log).1 :=
          Function.update_self ..
        rw [hself] at h
        cases hprogress : (p.step schema' out' (x.outlets o') x.log).1 with
        | done r =>
            rw [hprogress] at h
            cases h
        | waiting next =>
            rw [hprogress] at h
            cases h
            refine ⟨p, hjob, fun n hn => ?_⟩
            rcases (Sending.step_next hprogress).1 with hsame | ⟨hnone, -⟩
            · rw [hsame]
              exact hn
            · rw [hnone] at hn
              cases hn

/-- A send that is there after moves was there before, and has noted what it had noted. -/
theorem noted_run (moves : List Move) (ht : t < x.next) {p' : Sending}
    (h : (x.run moves).jobs t = some (.send o schema out p')) :
    ∃ p, x.jobs t = some (.send o schema out p) ∧ ∀ n, p.noted? = some n → p'.noted? = some n := by
  induction moves generalizing x with
  | nil => exact ⟨p', h, fun _ hn => hn⟩
  | cons m moves ih =>
      obtain ⟨p, hp, hnoted⟩ := ih (Nat.lt_of_lt_of_le ht (next_perform m)) h
      obtain ⟨p₀, hp₀, hnoted₀⟩ := noted_perform m ht hp
      exact ⟨p₀, hp₀, fun n hn => hnoted n (hnoted₀ n hn)⟩

/-- Whoever has been told of an interruption, or is about to be, is so after any moves. -/
theorem tells_run (h : x.Sound) (moves : List Move) {n : Nat}
    (hn : n ≤ (x.outlets o).interrupts) (ht : (x.sendView o).Tells n) :
    ((x.run moves).sendView o).Tells n := by
  induction moves generalizing x with
  | nil => exact ht
  | cons m moves ih =>
      have hpasses := h.perform m
      exact ih hpasses.sound (Nat.le_trans hn (hpasses.sends o).interrupts)
        (ht.keeps hn (hpasses.sends o))

theorem interrupts_run (h : x.Sound) (moves : List Move) :
    (x.outlets o).interrupts ≤ ((x.run moves).outlets o).interrupts := by
  induction moves generalizing x with
  | nil => exact Nat.le_refl _
  | cons m moves ih =>
      have hpasses := h.perform m
      exact Nat.le_trans (hpasses.sends o).interrupts (ih hpasses.sound)

/-- A send that is under way at an interruption is told of it, or is about to be. -/
theorem tells_of_interrupt (h : x.Sound) {moves : List Move} (hm : Move.interrupt o ∈ moves)
    {n : Nat} (hn : n ≤ (x.outlets o).interrupts) : ((x.run moves).sendView o).Tells n := by
  obtain ⟨before, after, rfl⟩ := List.append_of_mem hm
  rw [run, List.foldl_append]
  have hbefore : (x.run before).Sound := h.run before
  have hpasses := hbefore.perform (.interrupt o)
  have hle := Nat.le_trans hn (interrupts_run h before (o := o))
  refine tells_run hpasses.sound after (Nat.le_trans hle (hpasses.sends o).interrupts) (Or.inr ?_)
  exact owes_enter rfl rfl (List.mem_cons_of_mem _ List.mem_cons_self)

end Interruptions

section Wakeups

/-- Whatever tasks do at one log, in whatever order their accesses come: when none of them can go on
before the clock does, each poll that waits has read what there is, and its reader is neither closed
nor has a wakeup pending; each send that waits has its acknowledgment held, and its channel has not
been interrupted since it took note of the interruptions, which is before its append. -/
theorem run_loses_no_wakeup (settings : Log.Settings) (readers : Nat → Nat) (moves : List Move)
    (hmax : 1 ≤ settings.maxPollRecords) (hquiet : ((new settings readers).run moves).Quiet) :
    (∀ t (κ ν : Type) i (schema : Schema κ ν) p,
        ((new settings readers).run moves).jobs t = some (.poll i schema p) →
          (∃ deadline seen, p = .watching deadline seen .parked ∧
            ((new settings readers).run moves).now < deadline) ∧
          ¬ (((new settings readers).run moves).inlets i).reader.HasUnread
              ((new settings readers).run moves).log ∧
          (((new settings readers).run moves).inlets i).reader.isWoken = false ∧
          (((new settings readers).run moves).inlets i).reader.isClosed = false) ∧
      (∀ t (κ ν : Type) o (schema : Schema κ ν) out p,
        ((new settings readers).run moves).jobs t = some (.send o schema out p) →
          ∃ n id q, p = .sent n (.ack id) ∧
            ((new settings readers).run moves).log.ledger[id]? = some .outstanding ∧
            (id, q) ∈ ((new settings readers).run moves).log.held) ∧
      ∀ first later t (κ ν : Type) o (schema : Schema κ ν) out p p' n, moves = first ++ later →
        ((new settings readers).run first).jobs t = some (.send o schema out p) →
        p.noted? = some n →
        ((new settings readers).run moves).jobs t = some (.send o schema out p') →
          Move.interrupt o ∉ later := by
  have hsound : ∀ moves, ((new settings readers).run moves).Sound :=
    (sound_new settings readers hmax).run
  refine ⟨fun t κ ν i schema p hjob => (hsound moves).quiet_poll hquiet hjob, ?_, ?_⟩
  · intro t κ ν o schema out p hjob
    obtain ⟨id, q, hp, hledger, hheld⟩ := (hsound moves).quiet_send hquiet hjob
    exact ⟨_, id, q, hp, hledger, hheld⟩
  · rintro first later t κ ν o schema out p p' n rfl hfirst hn hjob hinterrupt
    have hlt : t < ((new settings readers).run first).next := by
      by_contra hge
      rw [(hsound first).fresh t (Nat.le_of_not_lt hge)] at hfirst
      cases hfirst
    have hle := ((hsound first).sends t κ ν o schema out p hfirst).noted n hn
    have htells := tells_of_interrupt (hsound first) hinterrupt hle
    have hsplit : (new settings readers).run (first ++ later) =
        ((new settings readers).run first).run later := List.foldl_append ..
    rw [hsplit] at hquiet hjob
    obtain ⟨p₀, hp₀, hnoted⟩ := noted_run later hlt hjob
    cases hfirst.symm.trans hp₀
    obtain ⟨id, q, rfl, -, -⟩ := ((hsound first).run later).quiet_send hquiet hjob
    cases hnoted n hn
    rcases htells with hlt | howes
    · exact Nat.lt_irrefl _ hlt
    · exact hquiet.not_owes _ howes

/-- A poll of one partition, and a send to the other that waits for its acknowledgment; the poll is
called on by the append, finds nothing and waits again. -/
def quietMoves : List Move :=
  [.createTopic "jobs" 2, .assign 0 [⟨"jobs", 0⟩], .poll 0 .texts 1000] ++
    List.replicate 10 (.step 0) ++ [.hold, .send 0 .texts ⟨"jobs", some 1, "a", some "b"⟩] ++
    List.replicate 8 (.step 1) ++ List.replicate 10 (.step 0)

set_option maxRecDepth 4000 in
/-- After the moves of the sample both tasks wait. -/
theorem quietMoves_quiet : ((new {} id).run quietMoves).Quiet := by
  intro t job hjob
  match t with
  | 0 =>
      cases hjob
      rfl
  | 1 =>
      cases hjob
      rfl
  | t + 2 => cases hjob

/-- In the sample the poll has nothing to read, and the acknowledgment of the send is held. -/
theorem run_loses_no_wakeup_sample :
    ¬ (((new {} id).run quietMoves).inlets 0).reader.HasUnread ((new {} id).run quietMoves).log ∧
      ∃ (i : AckId) (q : Position),
        ((new {} id).run quietMoves).log.ledger[i]? = some .outstanding ∧
        (i, q) ∈ ((new {} id).run quietMoves).log.held := by
  obtain ⟨hpolls, hsends, -⟩ := run_loses_no_wakeup {} id quietMoves (by decide) quietMoves_quiet
  refine ⟨(hpolls 0 _ _ 0 _ _ rfl).2.1, ?_⟩
  obtain ⟨n, id, q, -, hledger, hheld⟩ := hsends 1 _ _ 0 _ _ _ rfl
  exact ⟨id, q, hledger, hheld⟩

end Wakeups

end Exchange
end ReplicatedLog
