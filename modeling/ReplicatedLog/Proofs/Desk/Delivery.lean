import ReplicatedLog.Proofs.Desk.Basic

/-!
# What a reader delivers

A new reader on any log is polled by any number of tasks, and others use it and its log in
between.

* `Event.Keeps`: a partition stays assigned through an event and is not sought by it, and
  `Event.Sound.moves`: it then delivers a run of offsets and the position moves behind it;
* `Timely`: a poll has begun at an event, and `RunsOut` what is true when it ends without records;
* `Delivers` is what is promised to those who poll: positions stay within the log, batches lie
  between two positions, a poll brings nothing only when its time is up and nothing was there when
  it looked last, and while a partition stays assigned its offsets come without gap and repeat;
* `run_delivers_in_order`: this holds whatever is done.
-/

namespace ReplicatedLog
namespace Desk

variable {κ ν : Type} {schema : Schema κ ν} {P : Pace schema} {d : Desk P}

section Batches

open Reader

variable {e : Event κ ν} {b : Batch κ ν} {p : Partition}

/-- An answer to a poll is the effect of a step that ends it. -/
theorem Event.Sound.polled {result : Except LogError (Batch κ ν)} (h : e.Sound P)
    (ho : e.before.isClosed = false) (ha : e.answer = some (.polled result)) :
    e.before.Effect schema e.log (some result) e.after ∧
      ∃ s, (P.go e.now e.log e.before s).1 = .done result := by
  cases h with
  | @poll m task s now log r steps =>
      have heffect : r.Effect schema log _ _ := P.effect now log s ho
      obtain ⟨found, hfound, hsame⟩ := Option.map_eq_some_iff.1 ha
      cases hsame
      rw [hfound] at heffect
      exact ⟨heffect, s, Progress.result_eq_some_iff.1 hfound⟩
  | endOffsets => cases ha
  | wake => cases ha
  | assign => cases ha
  | seek => cases ha

theorem advances_empty (before : SortedMap Partition Nat) :
    Advances before before (.empty : Batch κ ν) := by
  constructor
  · exact List.Pairwise.nil
  · exact fun r hr => absurd hr List.not_mem_nil
  · exact fun p n _ => rfl
  · exact fun p n hn => hn
  · rfl

/-- What a step of a poll brings is in the log and lies between two positions. -/
theorem effect_advances {log : Log} {r r' : Reader}
    (h : r.Effect schema log (some (.ok b)) r') :
    b.size ≤ log.settings.maxPollRecords ∧ Advances r.positions r'.positions b ∧
      Shows schema log b := by
  cases h with
  | brings hf full =>
      obtain ⟨hsize, hadvances⟩ := fetch_advances hf
      exact ⟨hsize, hadvances, fetch_shows hf⟩
  | nothing calm =>
      refine ⟨Nat.zero_le _, advances_empty _, ?_⟩
      constructor
      · exact fun r hr => absurd hr List.not_mem_nil
      · exact List.Pairwise.nil

/-- A step of a poll that fails moves no position; it fails with a wakeup or at a partition. -/
theorem effect_fails {log : Log} {r r' : Reader} {err : LogError}
    (h : r.Effect schema log (some (.error err)) r') :
    r'.positions = r.positions ∧
      (err = .wakeup ∨ ∃ p ∈ r.assignment, Unreadable schema log p err) := by
  cases h with
  | wakes woken => exact ⟨rfl, Or.inl rfl⟩
  | fails assigned unreadable => exact ⟨rfl, Or.inr ⟨_, assigned, unreadable⟩⟩

end Batches

section Runs

open Reader

variable {e : Event κ ν} {es : List (Event κ ν)} {p : Partition} {n : Nat} {r r' : Reader}

/-- The offsets of a partition that an event has delivered. -/
def Event.offsets (e : Event κ ν) (p : Partition) : List Nat :=
  match e.answer with
  | some (.polled (.ok b)) => b.offsets p
  | _ => []

/-- The offsets of a partition that events have delivered, in their order. -/
def delivered (es : List (Event κ ν)) (p : Partition) : List Nat :=
  es.flatMap fun e => e.offsets p

/-- The partition stays assigned and is not sought. -/
structure Event.Keeps (e : Event κ ν) (p : Partition) : Prop where
  before : p ∈ e.before.assignment
  after : p ∈ e.after.assignment
  notSought : ∀ ps, e.move = .seek ps → p ∉ ps

/-- An event that keeps a partition delivers a run from its position on, and moves it behind. -/
theorem Event.Sound.moves (h : e.Sound P) (ho : e.before.isClosed = false) (hk : e.Keeps p)
    (hn : e.before.position p = some n) :
    e.offsets p = List.range' n (e.offsets p).length ∧
      e.after.position p = some (n + (e.offsets p).length) := by
  have hstill : e.offsets p = [] → e.after.position p = some n →
      e.offsets p = List.range' n (e.offsets p).length ∧
        e.after.position p = some (n + (e.offsets p).length) := fun hnone hpos => by
    rw [hnone]
    exact ⟨rfl, hpos⟩
  cases h with
  | @poll m task s now log r steps =>
      have heffect : r.Effect schema log _ _ := P.effect now log s ho
      simp only [Event.offsets] at hstill ⊢
      generalize (P.go now log r s).1.result = result at heffect hstill ⊢
      generalize (P.go now log r s).2 = r' at heffect hstill ⊢
      cases result with
      | none =>
          cases heffect with
          | waits => exact hstill rfl hn
      | some result =>
          cases result with
          | error err =>
              refine hstill rfl ?_
              rw [position, (effect_fails heffect).1]
              exact hn
          | ok b =>
              have hadvances := (effect_advances heffect).2.1
              exact ⟨hadvances.runs p n hn, hadvances.moved p n hn⟩
  | endOffsets =>
      refine hstill rfl ?_
      rw [position, endOffsets_positions]
      exact hn
  | wake => exact hstill rfl hn
  | @assign ps now log r =>
      refine hstill rfl ?_
      have hassigned := assign_get? ho ps p
      have hmem : p ∈ ps := by
        obtain ⟨m, hm⟩ := SortedMap.mem_keys_iff.1 hk.after
        rw [hassigned] at hm
        by_contra hout
        rw [if_neg hout] at hm
        cases hm
      rw [if_pos hmem, show r.position p = some n from hn] at hassigned
      exact hassigned
  | @seek ps now log r =>
      refine hstill rfl ?_
      rcases seekToBeginning_get? r ps p with hsame | ⟨hsought, -⟩
      · exact hsame.trans hn
      · exact absurd hsought (hk.notSought ps rfl)

/-- Events that keep a partition deliver one run, and move its position behind. -/
theorem Leads.moves (hs : ∀ e ∈ es, e.Sound P ∧ e.before.isClosed = false)
    (hk : ∀ e ∈ es, e.Keeps p) (h : Leads r es r') (hn : r.position p = some n) :
    delivered es p = List.range' n (delivered es p).length ∧
      r'.position p = some (n + (delivered es p).length) := by
  induction es generalizing r n with
  | nil =>
      cases h
      exact ⟨rfl, hn⟩
  | cons e es ih =>
      obtain ⟨rfl, hes⟩ := h
      obtain ⟨hsound, hopen⟩ := hs e List.mem_cons_self
      obtain ⟨hrun, hpos⟩ := hsound.moves hopen (hk e List.mem_cons_self) hn
      obtain ⟨hlater, hend⟩ := ih (fun f hf => hs f (List.mem_cons_of_mem _ hf))
        (fun f hf => hk f (List.mem_cons_of_mem _ hf)) hes hpos
      have hsplit : delivered (e :: es) p = e.offsets p ++ delivered es p := rfl
      constructor
      · rw [hsplit, List.length_append]
        conv_lhs => rw [hrun, hlater]
        rw [List.range'_append_1]
      · rw [hend, hsplit, List.length_append, Nat.add_assoc]

end Runs

section Bounds

open Reader

variable {r r' : Reader} {log : Log}

theorem within_of_positions (h : r.Within log) (hp : r'.positions = r.positions) :
    r'.Within log := by
  rw [Within, hp]
  exact h

theorem within_grows {after : Log} (h : r.Within log) (hg : log.Grows after) : r.Within after :=
  fun p n hn => Nat.le_trans (h p n hn) (hg.entries p).length_le

theorem effect_within {result : Option (Except LogError (Batch κ ν))}
    (h : r.Effect schema log result r') (hw : r.Within log) : r'.Within log := by
  cases result with
  | none =>
      cases h with
      | waits => exact hw
  | some result =>
      cases result with
      | error err => exact within_of_positions hw (effect_fails h).1
      | ok b => exact (effect_advances h).2.1.within (effect_advances h).2.2 hw

/-- No move takes a position past the end of its partition. -/
theorem perform_within (ho : d.reader.isClosed = false) (h : d.reader.Within d.log) (m : Move) :
    (d.perform m).reader.Within (d.perform m).log := by
  cases m with
  | poll timeout => exact effect_within (P.effect _ _ _ ho) h
  | step task =>
      rw [perform]
      split
      · exact effect_within (P.effect _ _ _ ho) h
      · exact h
  | leave task => exact h
  | endOffsets ps => exact within_of_positions h (endOffsets_positions _ _ _)
  | wake => exact h
  | assign ps =>
      rintro p n hn
      have hassigned := assign_get? ho ps p
      have hn' : (d.reader.assign ps).2.positions.get? p = some n := hn
      rw [hassigned] at hn'
      split at hn'
      · cases hold : d.reader.position p with
        | none =>
            rw [hold] at hn'
            cases hn'
            exact Nat.zero_le _
        | some k =>
            rw [hold] at hn'
            cases hn'
            exact h p _ hold
      · cases hn'
  | seek ps =>
      rintro p n hn
      have hn' : (d.reader.seekToBeginning ps).2.positions.get? p = some n := hn
      rcases seekToBeginning_get? d.reader ps p with hsame | ⟨-, hzero⟩
      · exact h p n (hsame.symm.trans hn')
      · rw [hzero] at hn'
        cases hn'
        exact Nat.zero_le _
  | onLog op => exact within_grows h (Log.perform_grows _ op)
  | pass ticks => exact h

end Bounds

section Deadlines

/-- The event is the first step of a poll of a task, whose time is up at the deadline. -/
def Event.Begins (f : Event κ ν) (task : TaskId) (deadline : Nat) : Prop :=
  f.task = some task ∧ ∃ timeout, f.move = .poll timeout ∧ deadline = f.now + timeout

/-- A fetch that was made at the event found nothing. -/
def Event.FindsNothing (schema : Schema κ ν) (e : Event κ ν) : Prop :=
  e.before.FindsNothing schema e.log

/-- The last event of a task. -/
def lastOf (es : List (Event κ ν)) (task : TaskId) : Option (Event κ ν) :=
  (es.filter fun f => f.task = some task).getLast?

variable {es : List (Event κ ν)} {e : Event κ ν} {task : TaskId}

theorem lastOf_concat_self (h : e.task = some task) : lastOf (es ++ [e]) task = some e := by
  simp [lastOf, h]

theorem lastOf_concat_of_ne (h : e.task ≠ some task) :
    lastOf (es ++ [e]) task = lastOf es task := by
  simp [lastOf, h]

/-- The poll of a task is between two steps: it has begun at an event, and if it has just fetched
and found nothing, that was at the last event of the task. -/
structure Underway (P : Pace schema) (events : List (Event κ ν)) (task : TaskId) (s : P.Going) :
    Prop where
  begun : ∃ f ∈ events, ∀ later, f.Begins task (P.due later s)
  found : P.found s → ∃ f, lastOf events task = some f ∧ f.FindsNothing schema

/-- The poll of a task ends without records at an event with others before it: its time is up. -/
structure RunsOut (P : Pace schema) (es : List (Event κ ν)) (e : Event κ ν) (b : Batch κ ν)
    (task : TaskId) (s : P.Going) : Prop where
  task_eq : e.task = some task
  last : (P.go e.now e.log e.before s).1 = .done (.ok b)
  found : P.found s → ∃ f, lastOf es task = some f ∧ f.FindsNothing schema
  late : ∃ deadline, deadline ≤ e.now ∧ ∃ f ∈ es ++ [e], f.Begins task deadline

/-- Each poll has begun at an event, and has not come to its end without records before its time was
up. -/
structure Timely (d : Desk P) : Prop where
  polls : ∀ task s, d.polls task = some s → Underway P d.events task s
  empties : ∀ es e fs b, d.events = es ++ e :: fs → e.answer = some (.polled (.ok b)) →
    b.isEmpty = true → ∃ task s, RunsOut P es e b task s

theorem timely_new (P : Pace schema) (log : Log) : (new P log).Timely := by
  constructor
  · rintro task s hs
    cases hs
  · intro es e fs b hsplit
    simp [new] at hsplit

/-- What others do leaves a poll where it is. -/
theorem Underway.concat {s : P.Going} (h : Underway P es task s) (he : e.task ≠ some task) :
    Underway P (es ++ [e]) task s := by
  obtain ⟨f, hf, hbegins⟩ := h.begun
  refine ⟨⟨f, List.mem_append_left _ hf, hbegins⟩, fun hfound => ?_⟩
  rw [lastOf_concat_of_ne he]
  exact h.found hfound

/-- Something that is no step of a poll. -/
theorem Timely.note (h : d.Timely) {m : Move} {r : Reader} {answer : Option (Answer κ ν)}
    (ha : ∀ result, answer ≠ some (.polled result)) : (d.note m none answer r).Timely := by
  constructor
  · exact fun task s hs => (h.polls task s hs).concat (Option.some_ne_none task).symm
  · rintro es e fs b hsplit hb hempty
    rcases Channel.split_concat hsplit with ⟨-, -, rfl⟩ | ⟨fs', -, hbefore⟩
    · exact absurd hb (ha _)
    · exact h.empties es e fs' b hbefore hb hempty

/-- A step of a poll that has begun. -/
theorem Timely.advance (h : d.Timely) (ho : d.reader.isClosed = false) {m : Move} {task : TaskId}
    {s : P.Going} (hbegun : ∃ f ∈ (d.advance m task s).events, f.Begins task (P.due d.now s))
    (hfound : P.found s → ∃ f, lastOf d.events task = some f ∧ f.FindsNothing schema) :
    (d.advance m task s).Timely := by
  obtain ⟨f, hf, hbegins⟩ := hbegun
  constructor
  · rintro id s' hs'
    have hput :
        Function.update d.polls task (P.go d.now d.log d.reader s).1.rest id = some s' := hs'
    by_cases hid : id = task
    · subst hid
      rw [Function.update_self] at hput
      have hwaits := Progress.rest_eq_some_iff.1 hput
      refine ⟨⟨f, hf, fun later => ?_⟩, fun hfinds => ?_⟩
      · rw [P.due_go ho hwaits]
        exact hbegins
      · exact ⟨d.stepped m id s, lastOf_concat_self rfl, P.finds hwaits hfinds⟩
    · rw [Function.update_of_ne hid] at hput
      exact (h.polls id s' hput).concat fun hsame => hid (Option.some.inj hsame).symm
  · rintro es e fs b hsplit hb hempty
    rw [advance_events] at hsplit hf
    rcases Channel.split_concat hsplit with ⟨-, rfl, rfl⟩ | ⟨fs', -, hbefore⟩
    · obtain ⟨result, hresult, hsame⟩ := Option.map_eq_some_iff.1 hb
      cases hsame
      have hdone := Progress.result_eq_some_iff.1 hresult
      exact ⟨task, s, rfl, hdone, hfound, _, P.late ho hdone hempty, f, hf, hbegins⟩
    · exact h.empties es e fs' b hbefore hb hempty

theorem Timely.perform (h : d.Timely) (ho : d.reader.isClosed = false) (m : Move) :
    (d.perform m).Timely := by
  cases m with
  | poll timeout =>
      have hbegun : ∃ f ∈ (d.advance (.poll timeout) d.next (P.start timeout)).events,
          f.Begins d.next (P.due d.now (P.start timeout)) := by
        refine ⟨d.stepped (.poll timeout) d.next (P.start timeout), ?_, rfl, timeout, rfl, ?_⟩
        · rw [advance_events]
          exact List.mem_append_right _ List.mem_cons_self
        · exact P.due_start d.now timeout
      have hstep := h.advance ho hbegun fun hfound => absurd hfound (P.start_found timeout)
      exact ⟨hstep.polls, hstep.empties⟩
  | step task =>
      rw [Desk.perform]
      split
      next s hs =>
        obtain ⟨⟨f, hf, hbegins⟩, hfound⟩ := h.polls task s hs
        exact h.advance ho ⟨f, List.mem_append_left _ hf, hbegins d.now⟩ hfound
      next => exact h
  | leave task =>
      constructor
      · rintro id s hs
        have hput : Function.update d.polls task none id = some s := hs
        by_cases hid : id = task
        · subst hid
          rw [Function.update_self] at hput
          cases hput
        · rw [Function.update_of_ne hid] at hput
          exact h.polls id s hput
      · exact h.empties
  | endOffsets ps => exact h.note (by simp)
  | wake => exact h.note (by simp)
  | assign ps => exact h.note (by simp)
  | seek ps => exact h.note (by simp)
  | onLog op => exact ⟨h.polls, h.empties⟩
  | pass ticks => exact ⟨h.polls, h.empties⟩

end Deadlines

section Promises

open Reader

/-- The event at which a poll that ends at an event has looked for records last: this event if polls
go from one wait to the next, and the one before of the same task if they go by looks. -/
def lastLook (g : Grain) (es : List (Event κ ν)) (e : Event κ ν) : Option (Event κ ν) :=
  match g with
  | .whole => some e
  | .byLooks => e.task.bind (lastOf es)

theorem mem_of_lastLook {g : Grain} {es : List (Event κ ν)} {e f : Event κ ν}
    (h : lastLook g es e = some f) : f ∈ es ++ [e] := by
  cases g with
  | whole =>
      cases h
      exact List.mem_append_right _ List.mem_cons_self
  | byLooks =>
      obtain ⟨task, -, hlast⟩ := Option.bind_eq_some_iff.1 h
      exact List.mem_append_left _ (List.mem_filter.1 (List.mem_of_getLast? hlast)).1

/-- A poll that ends without records has found nothing when it looked last. -/
theorem RunsOut.lastLook {g : Grain} {es : List (Event κ ν)} {e : Event κ ν} {b : Batch κ ν}
    {task : TaskId} {s : (g.pace schema).Going} (h : RunsOut (g.pace schema) es e b task s)
    (ho : e.before.isClosed = false) (hempty : b.isEmpty = true) :
    ∃ f, lastLook g es e = some f ∧ f.FindsNothing schema := by
  cases g with
  | whole => exact ⟨e, rfl, Pace.whole_finds ho h.last hempty⟩
  | byLooks =>
      obtain ⟨deadline, seen, rfl, -⟩ := Pace.look_empty ho h.last hempty
      obtain ⟨f, hf, hfinds⟩ := h.found trivial
      refine ⟨f, ?_, hfinds⟩
      rw [Desk.lastLook, h.task_eq]
      exact hf

/-- What is promised to those who poll a reader. -/
structure Delivers {g : Grain} (d : Desk (g.pace schema)) (room : Nat) : Prop where
  /-- No position is past the end of its partition. -/
  within : ∀ p n, d.reader.position p = some n → n ≤ (d.log.endOffset p).getD 0
  /-- A batch has so many records at most and lies between two positions. -/
  batches : ∀ e ∈ d.events, ∀ b, e.answer = some (.polled (.ok b)) →
    b.size ≤ room ∧ Advances e.before.positions e.after.positions b ∧ Shows schema e.log b
  /-- A poll that brings nothing has begun long enough ago, and nothing was unread when it looked
  last. -/
  empties : ∀ es e fs b, d.events = es ++ e :: fs → e.answer = some (.polled (.ok b)) →
    b.isEmpty = true →
    (∃ f, lastLook g es e = some f ∧ ¬ f.before.HasUnread f.log) ∧
      ∃ task deadline, e.task = some task ∧ deadline ≤ e.now ∧
        ∃ f ∈ d.events, f.Begins task deadline
  /-- A poll that fails moves nothing; it was woken, or there is a partition that cannot be read. -/
  failures : ∀ e ∈ d.events, ∀ err, e.answer = some (.polled (.error err)) →
    e.after.positions = e.before.positions ∧
      (err = .wakeup ∨ ∃ p ∈ e.before.assignment, Unreadable schema e.log p err)
  /-- As long as a partition stays assigned and is not sought, its offsets follow one another. -/
  runs : ∀ pre first rest post p n, d.events = pre ++ (first :: rest) ++ post →
    (∀ e ∈ first :: rest, e.Keeps p) → first.before.position p = some n →
      delivered (first :: rest) p = List.range' n (delivered (first :: rest) p).length

/-- Whatever is done with a new reader and with its log, it delivers the log in order, whether polls
go from one wait to the next or by looks. -/
theorem run_delivers_in_order (g : Grain) (schema : Schema κ ν) (log : Log)
    (hroom : 1 ≤ log.settings.maxPollRecords) (moves : List Move) :
    ((new (g.pace schema) log).run moves).Delivers log.settings.maxPollRecords := by
  have hsound := run_sound (g.pace schema) log moves
  have hsettings := (run_settings (g.pace schema) log moves).2
  have hkept : ∀ d : Desk (g.pace schema), d.Sound ∧ d.reader.Within d.log ∧ d.Timely →
      ∀ m, (d.perform m).Sound ∧ (d.perform m).reader.Within (d.perform m).log ∧
        (d.perform m).Timely := fun d ⟨hs, hw, ht⟩ m =>
    ⟨hs.perform m, perform_within hs.isOpen hw m, ht.perform hs.isOpen m⟩
  have hnew : (new (g.pace schema) log).Sound ∧
      (new (g.pace schema) log).reader.Within log ∧ (new (g.pace schema) log).Timely :=
    ⟨sound_new _ log, nofun, timely_new _ log⟩
  obtain ⟨-, hwithin, htimely⟩ := run_induction hnew (fun d m h => hkept d h m) moves
  constructor
  · rintro p n hn
    rw [← Log.length_written]
    exact hwithin p n hn
  · rintro e he b hb
    obtain ⟨hevent, hopen⟩ := hsound.events e he
    rw [← hsettings e he]
    exact effect_advances (hevent.polled hopen hb).1
  · rintro es e fs b hsplit hb hempty
    have hmem : ∀ f ∈ es ++ [e], f ∈ ((new (g.pace schema) log).run moves).events := by
      intro f hf
      rw [hsplit, List.append_cons]
      exact List.mem_append_left _ hf
    have he := hmem e (List.mem_append_right _ List.mem_cons_self)
    obtain ⟨task, s, hout⟩ := htimely.empties es e fs b hsplit hb hempty
    obtain ⟨deadline, hle, first, hfirst, hbegins⟩ := hout.late
    obtain ⟨f, hlook, hfinds⟩ := hout.lastLook (hsound.events e he).2 hempty
    refine ⟨⟨f, hlook, hfinds.not_hasUnread ?_⟩, task, deadline, hout.task_eq, hle, first,
      hmem first hfirst, hbegins⟩
    rw [hsettings f (hmem f (mem_of_lastLook hlook))]
    exact Nat.pos_iff_ne_zero.1 hroom
  · rintro e he err herr
    obtain ⟨hevent, hopen⟩ := hsound.events e he
    exact effect_fails (hevent.polled hopen herr).1
  · rintro pre first rest post p n hsplit hkeeps hn
    rw [List.append_assoc, List.cons_append] at hsplit
    obtain ⟨-, hleads⟩ := hsound.split hsplit
    obtain ⟨m, hrest, -⟩ := leads_append_iff.1 hleads
    have hperiod : Leads first.before (first :: rest) m := ⟨rfl, hrest⟩
    refine (hperiod.moves (P := g.pace schema) (fun e he => ?_) hkeeps hn).1
    refine hsound.events e ?_
    rw [hsplit, ← List.cons_append]
    exact List.mem_append_right _ (List.mem_append_left _ he)

/-- A reader of two topics whose batches hold two records, with a wakeup and a reassignment in
between. -/
def sampleMoves : List Move :=
  [.onLog (.append "a" (some 0) ⟨[97], some [98]⟩), .onLog (.append "a" (some 0) ⟨[97], none⟩),
    .onLog (.append "a" (some 0) ⟨[97], some [99]⟩), .onLog (.append "b" (some 0) ⟨[97], none⟩),
    .assign [⟨"b", 0⟩, ⟨"a", 0⟩], .poll 5, .wake, .poll 5, .assign [⟨"a", 0⟩, ⟨"c", 7⟩], .poll 5,
    .poll 3, .pass 3, .step 3]

/-- A poll that goes by looks, with an entry that comes when it has fetched. -/
def sampleLooks : List Move :=
  [.assign [⟨"a", 0⟩], .poll 0, .step 0, .onLog (.append "a" (some 0) ⟨[97], none⟩), .step 0]

/-- In the sample the first topic is delivered in two batches, and the last poll brings nothing; nor
does the one that has looked too early. -/
theorem run_delivers_in_order_sample :
    let d := (new (Grain.whole.pace .texts) { settings := { maxPollRecords := 2 } }).run sampleMoves
    let d' := (new (Grain.byLooks.pace .texts) {}).run sampleLooks
    (d.Delivers 2 ∧ delivered d.events ⟨"a", 0⟩ = [0, 1, 2] ∧
      d.events.map (fun e => e.offsets ⟨"a", 0⟩) = [[], [0, 1], [], [], [], [2], [], []] ∧
      d.reader.position ⟨"a", 0⟩ = some 3 ∧ d.reader.position ⟨"c", 7⟩ = some 0) ∧
    d'.Delivers 500 ∧ d'.polls 0 = none ∧ delivered d'.events ⟨"a", 0⟩ = [] ∧
      d'.log.endOffset ⟨"a", 0⟩ = some 1 :=
  ⟨⟨run_delivers_in_order .whole .texts _ (by decide) sampleMoves, rfl, rfl, rfl, rfl⟩,
    run_delivers_in_order .byLooks .texts _ (by decide) sampleLooks, rfl, rfl, rfl⟩

end Promises

end Desk
end ReplicatedLog
