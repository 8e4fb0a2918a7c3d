import ReplicatedLog.Proofs.Desk.Pace
import Mathlib.Logic.Function.Basic

/-!
# A reader and those who use it

Any number of tasks poll one reader and ask it for end offsets, while others wake it, assign
partitions to it, seek, and use its log.  Nobody closes it.

* `Desk` is the reader with the polls in progress and an account of what has been done with the
  reader; `Desk.run` makes any moves in their order, and a move that cannot be made changes
  nothing;
* `Event.Sound` says what an event was, by the move that it was;
* `Leads`: the events of an account follow one another, each from the reader that the one before
  has left, and `Desk.Sound.split` takes an account apart at one of them.

A move is what a task does between two points at which it waits, or, at the grain of
`Pace.byLooks`, between two looks at the flags of the reader.  That a poll reads one partition after
the other is seen in neither: `Exchange` has the single accesses.
-/

namespace ReplicatedLog

namespace Desk

/-- What can happen at a reader. -/
inductive Move
  /-- A new task begins a poll with its first step. -/
  | poll (timeout : Nat)
  /-- The next step of a poll. -/
  | step (task : TaskId)
  /-- A poll is given up. -/
  | leave (task : TaskId)
  | endOffsets (ps : List Partition)
  | wake
  | assign (ps : List Partition)
  | seek (ps : List Partition)
  /-- Others use the log. -/
  | onLog (op : Log.Operation)
  | pass (ticks : Nat)

/-- What a call of the reader has brought. -/
inductive Answer (κ ν : Type)
  | polled (result : Except LogError (Batch κ ν))
  | ends (result : Except LogError (SortedMap Partition Nat))

/-- Something that has been done with the reader. -/
structure Event (κ ν : Type) where
  move : Move
  /-- The task whose poll it was. -/
  task : Option TaskId
  now : Nat
  log : Log
  before : Reader
  /-- What has been answered, unless it was no call or the call goes on. -/
  answer : Option (Answer κ ν)
  after : Reader

end Desk

open Desk

variable {κ ν : Type} {schema : Schema κ ν}

/-- A reader with the polls in progress. -/
structure Desk (P : Pace schema) where
  log : Log
  now : Nat := 0
  reader : Reader := {}
  polls : TaskId → Option P.Going := fun _ => none
  /-- The number for a new task. -/
  next : TaskId := 0
  /-- What has been done with the reader, in its order. -/
  events : List (Event κ ν) := []

namespace Desk

variable {P : Pace schema}

section Moves

/-- A new reader on a log. -/
def new (P : Pace schema) (log : Log) : Desk P where
  log := log

/-- The desk after something has been done with the reader. -/
def note (d : Desk P) (m : Move) (task : Option TaskId) (answer : Option (Answer κ ν))
    (reader : Reader) : Desk P :=
  { d with reader, events := d.events ++ [⟨m, task, d.now, d.log, d.reader, answer, reader⟩] }

/-- The step of a poll as an event. -/
def stepped (d : Desk P) (m : Move) (task : TaskId) (s : P.Going) : Event κ ν :=
  let (progress, reader) := P.go d.now d.log d.reader s
  ⟨m, some task, d.now, d.log, d.reader, progress.result.map .polled, reader⟩

/-- The desk after a step of a poll. -/
def advance (d : Desk P) (m : Move) (task : TaskId) (s : P.Going) : Desk P :=
  let (progress, reader) := P.go d.now d.log d.reader s
  { d.note m (some task) (progress.result.map .polled) reader with
    polls := Function.update d.polls task progress.rest }

/-- The desk after a move. -/
def perform (d : Desk P) : Move → Desk P
  | .poll timeout => { d.advance (.poll timeout) d.next (P.start timeout) with next := d.next + 1 }
  | .step task =>
      match d.polls task with
      | some s => d.advance (.step task) task s
      | none => d
  | .leave task => { d with polls := Function.update d.polls task none }
  | .endOffsets ps =>
      let (result, reader) := d.reader.endOffsets d.log ps
      d.note (.endOffsets ps) none (some (.ends result)) reader
  | .wake => d.note .wake none none d.reader.wake
  | .assign ps => d.note (.assign ps) none none (d.reader.assign ps).2
  | .seek ps => d.note (.seek ps) none none (d.reader.seekToBeginning ps).2
  | .onLog op => { d with log := d.log.perform op }
  | .pass ticks => { d with now := d.now + ticks }

/-- The desk after moves. -/
def run (d : Desk P) (moves : List Move) : Desk P :=
  moves.foldl perform d

/-- What holds at first and is kept by every move holds after any moves. -/
theorem run_induction {Q : Desk P → Prop} {d : Desk P} (h : Q d)
    (hstep : ∀ d m, Q d → Q (d.perform m)) (moves : List Move) : Q (d.run moves) := by
  induction moves generalizing d with
  | nil => exact h
  | cons m moves ih => exact ih (hstep d m h)

end Moves

section Events

variable {d : Desk P}

theorem advance_events (d : Desk P) (m : Move) (task : TaskId) (s : P.Going) :
    (d.advance m task s).events = d.events ++ [d.stepped m task s] := rfl

/-- A move adds at most one event, of what is now there. -/
theorem perform_events (d : Desk P) (m : Move) :
    (d.perform m).events = d.events ∨
      ∃ e, (d.perform m).events = d.events ++ [e] ∧ e.log = d.log := by
  cases m with
  | poll timeout => exact Or.inr ⟨_, rfl, rfl⟩
  | step task =>
      rw [perform]
      split
      · exact Or.inr ⟨_, rfl, rfl⟩
      · exact Or.inl rfl
  | leave task => exact Or.inl rfl
  | endOffsets ps => exact Or.inr ⟨_, rfl, rfl⟩
  | wake => exact Or.inr ⟨_, rfl, rfl⟩
  | assign ps => exact Or.inr ⟨_, rfl, rfl⟩
  | seek ps => exact Or.inr ⟨_, rfl, rfl⟩
  | onLog op => exact Or.inl rfl
  | pass ticks => exact Or.inl rfl

theorem perform_grows (d : Desk P) (m : Move) : d.log.Grows (d.perform m).log := by
  cases m with
  | onLog op => exact Log.perform_grows d.log op
  | step task =>
      rw [perform]
      split <;> exact .refl _
  | _ => exact .refl _

/-- The settings of the log stay what they are, and so they were at every event. -/
theorem run_settings (P : Pace schema) (log : Log) (moves : List Move) :
    ((new P log).run moves).log.settings = log.settings ∧
      ∀ e ∈ ((new P log).run moves).events, e.log.settings = log.settings := by
  refine run_induction (Q := fun d => d.log.settings = log.settings ∧
    ∀ e ∈ d.events, e.log.settings = log.settings) ?_ ?_ moves
  · exact ⟨rfl, fun e he => absurd he List.not_mem_nil⟩
  · rintro d m ⟨hlog, hevents⟩
    refine ⟨(perform_grows d m).settings.trans hlog, ?_⟩
    rcases perform_events d m with hsame | ⟨e, hmore, he⟩
    · rw [hsame]
      exact hevents
    · rw [hmore]
      rintro f hf
      rcases List.mem_append.1 hf with hf | hf
      · exact hevents f hf
      · rw [List.mem_singleton.1 hf, he]
        exact hlog

end Events

section Accounts

/-- The event is a step of a poll from here on. -/
def Steps (P : Pace schema) (task : TaskId) : Move → P.Going → Prop
  | .poll timeout, s => s = P.start timeout
  | .step other, _ => other = task
  | _, _ => False

/-- What an event was. -/
inductive Event.Sound (P : Pace schema) : Event κ ν → Prop
  | poll {m : Move} {task : TaskId} {s : P.Going} {now : Nat} {log : Log} {r : Reader}
      (steps : Steps P task m s) :
      Sound P ⟨m, some task, now, log, r, (P.go now log r s).1.result.map .polled,
        (P.go now log r s).2⟩
  | endOffsets {ps : List Partition} {now : Nat} {log : Log} {r : Reader} :
      Sound P ⟨.endOffsets ps, none, now, log, r, some (.ends (r.endOffsets log ps).1),
        (r.endOffsets log ps).2⟩
  | wake {now : Nat} {log : Log} {r : Reader} : Sound P ⟨.wake, none, now, log, r, none, r.wake⟩
  | assign {ps : List Partition} {now : Nat} {log : Log} {r : Reader} :
      Sound P ⟨.assign ps, none, now, log, r, none, (r.assign ps).2⟩
  | seek {ps : List Partition} {now : Nat} {log : Log} {r : Reader} :
      Sound P ⟨.seek ps, none, now, log, r, none, (r.seekToBeginning ps).2⟩

/-- Events that follow one another lead from one reader to another. -/
def Leads : Reader → List (Event κ ν) → Reader → Prop
  | r, [], r' => r = r'
  | r, e :: es, r' => e.before = r ∧ Leads e.after es r'

variable {d : Desk P} {e : Event κ ν} {es fs : List (Event κ ν)} {r r' : Reader}

theorem leads_append_iff :
    Leads r (es ++ fs) r' ↔ ∃ m, Leads r es m ∧ Leads m fs r' := by
  induction es generalizing r with
  | nil =>
      constructor
      · exact fun h => ⟨r, rfl, h⟩
      · rintro ⟨m, rfl, h⟩
        exact h
  | cons e es ih =>
      constructor
      · rintro ⟨hbefore, h⟩
        obtain ⟨m, hes, hfs⟩ := ih.1 h
        exact ⟨m, ⟨hbefore, hes⟩, hfs⟩
      · rintro ⟨m, ⟨hbefore, hes⟩, hfs⟩
        exact ⟨hbefore, ih.2 ⟨m, hes, hfs⟩⟩

/-- What holds of a desk from its making on: its reader is open, and its account tells how the
reader has come to be what it is. -/
structure Sound (d : Desk P) : Prop where
  isOpen : d.reader.isClosed = false
  events : ∀ e ∈ d.events, e.Sound P ∧ e.before.isClosed = false
  leads : Leads {} d.events d.reader

theorem sound_new (P : Pace schema) (log : Log) : (new P log).Sound := by
  constructor
  · rfl
  · exact fun e he => absurd he List.not_mem_nil
  · rfl

theorem Sound.note (h : d.Sound) {m : Move} {task : Option TaskId}
    {answer : Option (Answer κ ν)}
    (he : Event.Sound P ⟨m, task, d.now, d.log, d.reader, answer, r⟩)
    (hr : r.isClosed = false) : (d.note m task answer r).Sound := by
  constructor
  · exact hr
  · rintro e hmem
    rcases List.mem_append.1 hmem with hmem | hmem
    · exact h.events e hmem
    · rw [List.mem_singleton.1 hmem]
      exact ⟨he, h.isOpen⟩
  · exact leads_append_iff.2 ⟨d.reader, h.leads, rfl, rfl⟩

theorem Sound.advance (h : d.Sound) {m : Move} {task : TaskId} {s : P.Going}
    (hm : Steps P task m s) : (d.advance m task s).Sound := by
  have heffect := P.effect d.now d.log s h.isOpen
  have hnoted := h.note (.poll hm) (heffect.isClosed.trans h.isOpen)
  exact ⟨hnoted.isOpen, hnoted.events, hnoted.leads⟩

theorem Sound.perform (h : d.Sound) (m : Move) : (d.perform m).Sound := by
  cases m with
  | poll timeout =>
      have hbegins : Steps P d.next (.poll timeout) (P.start timeout) := rfl
      have hstep := h.advance hbegins
      exact ⟨hstep.isOpen, hstep.events, hstep.leads⟩
  | step task =>
      rw [Desk.perform]
      split
      · exact h.advance rfl
      · exact h
  | leave task => exact ⟨h.isOpen, h.events, h.leads⟩
  | endOffsets ps => exact h.note .endOffsets (Reader.endOffsets_isClosed.trans h.isOpen)
  | wake => exact h.note .wake h.isOpen
  | assign ps => exact h.note .assign (Reader.assign_isClosed.trans h.isOpen)
  | seek ps => exact h.note .seek (Reader.seekToBeginning_isClosed.trans h.isOpen)
  | onLog op => exact ⟨h.isOpen, h.events, h.leads⟩
  | pass ticks => exact ⟨h.isOpen, h.events, h.leads⟩

theorem run_sound (P : Pace schema) (log : Log) (moves : List Move) :
    ((new P log).run moves).Sound :=
  run_induction (sound_new P log) (fun _ m h => h.perform m) moves

/-- An account taken apart at one of its events. -/
theorem Sound.split (h : d.Sound) (hsplit : d.events = es ++ e :: fs) :
    Leads {} es e.before ∧ Leads e.after fs d.reader := by
  have hleads := h.leads
  rw [hsplit] at hleads
  obtain ⟨m, hes, rfl, hfs⟩ := leads_append_iff.1 hleads
  exact ⟨hes, hfs⟩

/-- What stands between two events of an account leads from the one to the other. -/
theorem Sound.between {f : Event κ ν} {gs : List (Event κ ν)} (h : d.Sound)
    (hsplit : d.events = es ++ e :: (fs ++ f :: gs)) : Leads e.after fs f.before := by
  obtain ⟨m, hfs, rfl, -⟩ := leads_append_iff.1 (h.split hsplit).2
  exact hfs

/-- The events before one of an account, and this one. -/
theorem Sound.sound_split (h : d.Sound) (hsplit : d.events = es ++ e :: fs) :
    (∀ g ∈ es, g.Sound P ∧ g.before.isClosed = false) ∧ (e.Sound P ∧ e.before.isClosed = false) ∧
      ∀ g ∈ fs, g.Sound P ∧ g.before.isClosed = false := by
  have hevents := h.events
  rw [hsplit] at hevents
  obtain ⟨hes, hrest⟩ := List.forall_mem_append.1 hevents
  obtain ⟨he, hfs⟩ := List.forall_mem_cons.1 hrest
  exact ⟨hes, he, hfs⟩

end Accounts

end Desk
end ReplicatedLog
