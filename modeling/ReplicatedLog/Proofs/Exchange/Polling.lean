import ReplicatedLog.Channel.Basic
import ReplicatedLog.Proofs.Log.Scanning

/-!
# A poll, one access at a time

A step of a poll looks at the flags of its reader, notes the counts, reads one
partition after the other and looks at the flags again.  Where many tasks run at
once, anything may happen between two of these accesses.

* `Polling` is a poll in the midst of it, and `Polling.step` is its next access;
* `alone_stepPoll`: when nothing happens in between, the accesses come to one step
  of the poll;
* `Polling.Holds` says what is true of a poll at each point: whatever it has not
  found and has come since, a count has told of it or a task is about to count it;
* `Holds.keeps`: this outlasts what other tasks do, and `holds_step`: every access
  leaves it true.
-/

namespace ReplicatedLog

/-- A reader, and the task that is reading through its positions. -/
structure Inlet where
  reader : Reader := {}
  holder : Option TaskId := none

/-- How far a poll that has noted the counts has come. -/
inductive Watch (κ ν : Type)
  /-- Nothing has been read yet. -/
  | locking
  /-- Some partitions have been read, `rest` have not. -/
  | reading (found : Reader.Found κ ν) (rest : List (Partition × Nat))
  /-- The partition that was to be read is not there. -/
  | missing (found : Reader.Found κ ν) (p : Partition) (rest : List (Partition × Nat))
  /-- There was nothing to read. -/
  | fetched
  /-- The reader was not closed. -/
  | reopened
  /-- No wakeup was pending. -/
  | checked
  /-- There was time left. -/
  | parked

/-- A poll in the midst of a step. -/
inductive Polling (κ ν : Type)
  /-- Nothing has been looked at yet. -/
  | entering (timeout : Nat)
  /-- The reader was not closed. -/
  | entered (timeout : Nat)
  | looping (deadline : Nat)
  /-- The appends have been noted. -/
  | listening (deadline appends : Nat)
  /-- The calls have been noted as well. -/
  | watching (deadline : Nat) (seen : Reader.Seen) (w : Watch κ ν)

namespace Inlet

/-- The inlet after the pending wakeup has been taken. -/
def takeWakeup (i : Inlet) : Inlet :=
  { i with reader := { i.reader with isWoken := false } }

/-- The inlet after the polls of its reader have been called on. -/
def call (i : Inlet) : Inlet :=
  { i with reader := { i.reader with calls := i.reader.calls + 1 } }

/-- The inlet after a task has read through its positions. -/
def giveBack (i : Inlet) (moved : List (Partition × Nat)) : Inlet where
  reader := { i.reader with
    positions := moved.foldl (fun m e => m.insert e.1 e.2) i.reader.positions }

end Inlet

namespace Polling

variable {κ ν : Type}

/-- What one access leaves. -/
abbrev Stepped (κ ν : Type) :=
  Progress (Polling κ ν) (Except LogError (Batch κ ν)) × Inlet

section Steps

/-- The next access of a poll that has noted the counts. -/
def watch (schema : Schema κ ν) (now : Nat) (log : Log) (me : TaskId) (i : Inlet)
    (deadline : Nat) (seen : Reader.Seen) : Watch κ ν → Stepped κ ν
  | .locking =>
      (.waiting (.watching deadline seen (.reading ⟨[], []⟩ i.reader.positions.entries)),
        { i with holder := some me })
  | .reading found [] =>
      if found.records.isEmpty then
        (.waiting (.watching deadline seen .fetched), i.giveBack found.moved)
      else (.done (.ok ⟨found.records⟩), i.giveBack found.moved)
  | .reading found ((p, position) :: rest) =>
      let room := log.settings.maxPollRecords - found.records.length
      if room = 0 then (.waiting (.watching deadline seen (.reading found [])), i)
      else
        match log.read p position room with
        | none => (.waiting (.watching deadline seen (.missing found p rest)), i)
        | some es =>
            match Reader.decodeEntries schema p position es with
            | .error e => (.done (.error e), { i with holder := none })
            | .ok rs =>
                let moved := if es.isEmpty then [] else [(p, position + es.length)]
                (.waiting (.watching deadline seen
                  (.reading ⟨found.records ++ rs, found.moved ++ moved⟩ rest)), i)
  | .missing found p rest =>
      if (log.partitionCount p.topic).isNone then
        (.waiting (.watching deadline seen (.reading found rest)), i)
      else (.done (.error (.unknownPartition p)), { i with holder := none })
  | .fetched =>
      if i.reader.isClosed then (.done (.error .closed), i)
      else (.waiting (.watching deadline seen .reopened), i)
  | .reopened =>
      if i.reader.isWoken then (.done (.error .wakeup), i.takeWakeup)
      else (.waiting (.watching deadline seen .checked), i)
  | .checked =>
      if deadline ≤ now then (.done (.ok ⟨[]⟩), i)
      else (.waiting (.watching deadline seen .parked), i)
  | .parked => (.waiting (.looping deadline), i)

/-- The next access of a poll. -/
def step (schema : Schema κ ν) (now : Nat) (log : Log) (me : TaskId) (i : Inlet) :
    Polling κ ν → Stepped κ ν
  | .entering timeout =>
      if i.reader.isClosed then (.done (.error .closed), i) else (.waiting (.entered timeout), i)
  | .entered timeout =>
      if i.reader.isWoken then (.done (.error .wakeup), i.takeWakeup)
      else (.waiting (.looping (now + timeout)), i)
  | .looping deadline => (.waiting (.listening deadline log.appends), i)
  | .listening deadline appends =>
      (.waiting (.watching deadline ⟨appends, i.reader.calls⟩ .locking), i)
  | .watching deadline seen w => watch schema now log me i deadline seen w

/-- Whether a poll can go on: it waits for those that read through the same positions, and at the
end for a count to change or the clock. -/
def ready (now : Nat) (log : Log) (i : Inlet) : Polling κ ν → Bool
  | .watching _ _ .locking => i.holder.isNone
  | .watching deadline seen .parked => Reader.pollReady now log i.reader (.parked deadline seen)
  | _ => true

/-- A poll between two steps. -/
def between : Reader.Poll → Polling κ ν
  | .started timeout => .entering timeout
  | .parked deadline seen => .watching deadline seen .parked

end Steps

section Alone

variable {schema : Schema κ ν} {now : Nat} {log : Log} {me : TaskId}

/-- The accesses of one poll lead from one point to another when nothing happens in between. -/
inductive Alone (schema : Schema κ ν) (now : Nat) (log : Log) (me : TaskId) :
    Stepped κ ν → Stepped κ ν → Prop
  | refl (s : Stepped κ ν) : Alone schema now log me s s
  | step {p : Polling κ ν} {i : Inlet} {s : Stepped κ ν}
      (h : Alone schema now log me (Polling.step schema now log me i p) s) :
      Alone schema now log me (.waiting p, i) s

theorem Alone.trans {a b c : Stepped κ ν} (h : Alone schema now log me a b)
    (h' : Alone schema now log me b c) : Alone schema now log me a c := by
  induction h with
  | refl s => exact h'
  | step _ ih => exact .step (ih h')

/-- Reading one partition after the other comes to what a scan finds. -/
theorem alone_scan {i : Inlet} {deadline : Nat} {seen : Reader.Seen} :
    ∀ (rest : List (Partition × Nat)) (found : Reader.Found κ ν),
      Alone schema now log me (.waiting (.watching deadline seen (.reading found rest)), i)
        (match Reader.scan schema log (log.settings.maxPollRecords - found.records.length) rest with
        | .error e => (.done (.error e), { i with holder := none })
        | .ok more =>
            (.waiting (.watching deadline seen
              (.reading ⟨found.records ++ more.records, found.moved ++ more.moved⟩ [])), i)) := by
  intro rest
  induction rest with
  | nil =>
      intro found
      simpa [Reader.scan] using Alone.refl _
  | cons a rest ih =>
      obtain ⟨p, position⟩ := a
      intro found
      by_cases hroom : log.settings.maxPollRecords - found.records.length = 0
      · refine .step ?_
        simpa [step, watch, Reader.scan, hroom] using Alone.refl _
      cases hread : log.read p position (log.settings.maxPollRecords - found.records.length) with
      | none =>
          refine .step ?_
          simp only [step, watch, if_neg hroom, hread, Reader.scan]
          refine .step ?_
          by_cases htopic : (log.partitionCount p.topic).isNone
          · simpa only [step, watch, if_pos htopic] using ih found
          · simpa only [step, watch, if_neg htopic] using Alone.refl _
      | some es =>
          refine .step ?_
          simp only [step, watch, if_neg hroom, hread, Reader.scan]
          cases hrs : Reader.decodeEntries schema p position es with
          | error e => simpa [bind, Except.bind] using Alone.refl _
          | ok rs =>
              have hlen := (Reader.decodeEntries_shows hrs).1
              have hnext := ih ⟨found.records ++ rs,
                found.moved ++ if es.isEmpty then [] else [(p, position + es.length)]⟩
              rw [List.length_append, Nat.sub_add_eq, hlen] at hnext
              refine hnext.trans ?_
              cases Reader.scan schema log
                  (log.settings.maxPollRecords - found.records.length - es.length) rest with
              | error e => simpa [bind, Except.bind] using Alone.refl _
              | ok more =>
                  by_cases hes : es.isEmpty <;>
                    simpa [bind, Except.bind, pure, Except.pure, hes] using Alone.refl _

/-- The looks at the flags and at the clock, when there was nothing to read. -/
theorem alone_recheck (r : Reader) (deadline : Nat) (seen : Reader.Seen) :
    Alone schema now log me (.waiting (.watching deadline seen .fetched), ⟨r, none⟩)
      (match r.ensureUsable with
      | (.error e, r) => (.done (.error e), ⟨r, none⟩)
      | (.ok (), r) =>
          if deadline ≤ now then (.done (.ok ⟨[]⟩), ⟨r, none⟩)
          else (.waiting (.watching deadline seen .parked), ⟨r, none⟩)) := by
  obtain ⟨positions, isWoken, calls, isClosed⟩ := r
  cases isClosed with
  | true => exact .step (.refl _)
  | false =>
      cases isWoken with
      | true => exact .step (.step (.refl _))
      | false => exact .step (.step (.step (.refl _)))

/-- The accesses from the noting of the counts on come to an attempt. -/
theorem alone_attempt (r : Reader) (deadline : Nat) :
    Alone schema now log me (.waiting (.looping deadline), ⟨r, none⟩)
      ((r.attempt schema now log deadline).1.map between id,
        ⟨(r.attempt schema now log deadline).2, none⟩) := by
  refine .step (.step (.step ((alone_scan _ _).trans ?_)))
  unfold Reader.attempt Reader.fetch
  simp only [List.length_nil, Nat.sub_zero, List.nil_append]
  cases Reader.scan schema log log.settings.maxPollRecords r.positions.entries with
  | error e => exact .refl _
  | ok found =>
      obtain ⟨records, moved⟩ := found
      cases records with
      | cons record records => exact .step (.refl _)
      | nil =>
          refine .step ((alone_recheck _ deadline _).trans ?_)
          simp only [Batch.isEmpty, List.isEmpty_nil, Bool.not_true, Bool.false_eq_true, if_false]
          rcases Reader.ensureUsable _ with ⟨_ | ⟨⟨⟩⟩, r'⟩
          · exact .refl _
          · by_cases hover : deadline ≤ now
            · simp only [if_pos hover]
              exact .refl _
            · simp only [if_neg hover]
              exact .refl _

/-- When nothing happens in between, the accesses of a poll come to one step of it. -/
theorem alone_stepPoll (r : Reader) (p : Reader.Poll) :
    Alone schema now log me (.waiting (between p), ⟨r, none⟩)
      ((r.stepPoll schema now log p).1.map between id,
        ⟨(r.stepPoll schema now log p).2, none⟩) := by
  cases p with
  | parked deadline seen => exact .step (alone_attempt r deadline)
  | started timeout =>
      obtain ⟨positions, isWoken, calls, isClosed⟩ := r
      cases isClosed with
      | true => exact .step (.refl _)
      | false =>
          cases isWoken with
          | true => exact .step (.step (.refl _))
          | false => exact .step (.step (alone_attempt _ (now + timeout)))

end Alone

end Polling

/-- What is around the polls of one reader. -/
structure View where
  log : Log
  inlet : Inlet
  /-- An entry has been added and its append has yet to be counted. -/
  announcing : Prop
  /-- A flag of the reader has been set and a call has yet to be counted. -/
  calling : Prop

namespace View

variable {v v' : View} {seen : Reader.Seen} {me : TaskId}

/-- Someone who has seen so many appends is told of another one, or is about to be. -/
def TellsAppend (v : View) (seen : Reader.Seen) : Prop :=
  seen.appends < v.log.appends ∨ v.announcing

/-- Someone who has seen so many calls is told of another one, or is about to be. -/
def TellsCall (v : View) (seen : Reader.Seen) : Prop :=
  seen.calls < v.inlet.reader.calls ∨ v.calling

/-- There is an unread entry in one of the partitions that are not left to be read. -/
def Unread (v : View) (rest : List (Partition × Nat)) : Prop :=
  ∃ p n, (p, n) ∈ v.inlet.reader.positions.entries ∧ (p, n) ∉ rest ∧ n < (v.log.written p).length

/-- What a task that is reading through the positions has found. -/
structure ReadsOn (v : View) (me : TaskId) (seen : Reader.Seen) (nothing : Prop)
    (moved rest : List (Partition × Nat)) : Prop where
  holder : v.inlet.holder = some me
  within : ∀ e ∈ rest, e ∈ v.inlet.reader.positions.entries
  forward : ∀ e ∈ moved, ∃ n ≤ e.2, (e.1, n) ∈ v.inlet.reader.positions.entries
  unread : nothing → v.Unread rest → v.TellsAppend seen

/-- What a poll that has noted the counts may count on. -/
def Watches (v : View) (me : TaskId) (seen : Reader.Seen) {κ ν : Type} : Watch κ ν → Prop
  | .locking => True
  | .reading found rest => v.ReadsOn me seen (found.records = []) found.moved rest
  | .missing found _ rest => v.ReadsOn me seen (found.records = []) found.moved rest
  | .fetched => v.Unread [] → v.TellsAppend seen
  | .reopened =>
      (v.Unread [] → v.TellsAppend seen) ∧ (v.inlet.reader.isClosed = true → v.TellsCall seen)
  | .checked | .parked =>
      (v.Unread [] → v.TellsAppend seen) ∧ (v.inlet.reader.isClosed = true → v.TellsCall seen) ∧
        (v.inlet.reader.isWoken = true → v.TellsCall seen)

/-- What a poll may count on. -/
def Holds (v : View) (me : TaskId) {κ ν : Type} : Polling κ ν → Prop
  | .entering _ | .entered _ | .looping _ => True
  | .listening _ appends => appends ≤ v.log.appends
  | .watching _ seen w =>
      seen.appends ≤ v.log.appends ∧ seen.calls ≤ v.inlet.reader.calls ∧ v.Watches me seen w

/-- What the others leave as it is for a poll: counts only go up, what is to be counted is counted
or still to be counted, and so is whatever is new. -/
structure Keeps (v v' : View) (me : TaskId) : Prop where
  appends : v.log.appends ≤ v'.log.appends
  calls : v.inlet.reader.calls ≤ v'.inlet.reader.calls
  announced : v.announcing → v.log.appends < v'.log.appends ∨ v'.announcing
  called : v.calling → v.inlet.reader.calls < v'.inlet.reader.calls ∨ v'.calling
  written : ∀ p n, n < (v'.log.written p).length → n < (v.log.written p).length ∨ v'.announcing
  closed : v'.inlet.reader.isClosed = true → v.inlet.reader.isClosed = true ∨ v'.calling
  woken : v'.inlet.reader.isWoken = true → v.inlet.reader.isWoken = true ∨ v'.calling
  forward : ∀ p n, (p, n) ∈ v'.inlet.reader.positions.entries →
    ∃ k ≤ n, (p, k) ∈ v.inlet.reader.positions.entries
  held : v.inlet.holder = some me →
    v'.inlet.holder = some me ∧ v'.inlet.reader.positions = v.inlet.reader.positions

theorem Keeps.tellsAppend (h : v.Keeps v' me) (hseen : seen.appends ≤ v.log.appends)
    (ht : v.TellsAppend seen) : v'.TellsAppend seen := by
  rcases ht with ht | ht
  · exact Or.inl (Nat.lt_of_lt_of_le ht h.appends)
  · exact (h.announced ht).imp (Nat.lt_of_le_of_lt hseen) id

theorem Keeps.tellsCall (h : v.Keeps v' me) (hseen : seen.calls ≤ v.inlet.reader.calls)
    (ht : v.TellsCall seen) : v'.TellsCall seen := by
  rcases ht with ht | ht
  · exact Or.inl (Nat.lt_of_lt_of_le ht h.calls)
  · exact (h.called ht).imp (Nat.lt_of_le_of_lt hseen) id

theorem Keeps.unread (h : v.Keeps v' me) (hseen : seen.appends ≤ v.log.appends)
    (hu : v.Unread [] → v.TellsAppend seen) : v'.Unread [] → v'.TellsAppend seen := by
  rintro ⟨p, n, hmem, -, hlt⟩
  rcases h.written p n hlt with hold | hnew
  · obtain ⟨k, hk, hbefore⟩ := h.forward p n hmem
    exact h.tellsAppend hseen (hu ⟨p, k, hbefore, List.not_mem_nil, Nat.lt_of_le_of_lt hk hold⟩)
  · exact Or.inr hnew

theorem Keeps.closes (h : v.Keeps v' me) (hseen : seen.calls ≤ v.inlet.reader.calls)
    (hc : v.inlet.reader.isClosed = true → v.TellsCall seen) :
    v'.inlet.reader.isClosed = true → v'.TellsCall seen := by
  intro hclosed
  rcases h.closed hclosed with hold | hnew
  · exact h.tellsCall hseen (hc hold)
  · exact Or.inr hnew

theorem Keeps.wakes (h : v.Keeps v' me) (hseen : seen.calls ≤ v.inlet.reader.calls)
    (hw : v.inlet.reader.isWoken = true → v.TellsCall seen) :
    v'.inlet.reader.isWoken = true → v'.TellsCall seen := by
  intro hwoken
  rcases h.woken hwoken with hold | hnew
  · exact h.tellsCall hseen (hw hold)
  · exact Or.inr hnew

theorem Keeps.readsOn (h : v.Keeps v' me) (hseen : seen.appends ≤ v.log.appends) {nothing : Prop}
    {moved rest : List (Partition × Nat)} (hr : v.ReadsOn me seen nothing moved rest) :
    v'.ReadsOn me seen nothing moved rest := by
  obtain ⟨hholder, hpositions⟩ := h.held hr.holder
  refine ⟨hholder, ?_, ?_, ?_⟩
  · rw [hpositions]
    exact hr.within
  · rw [hpositions]
    exact hr.forward
  · rintro hnothing ⟨p, n, hmem, hread, hlt⟩
    rw [hpositions] at hmem
    rcases h.written p n hlt with hold | hnew
    · exact h.tellsAppend hseen (hr.unread hnothing ⟨p, n, hmem, hread, hold⟩)
    · exact Or.inr hnew

/-- What a poll may count on outlasts what the others do. -/
theorem Holds.keeps {κ ν : Type} {p : Polling κ ν} (hp : v.Holds me p) (h : v.Keeps v' me) :
    v'.Holds me p := by
  cases p with
  | entering timeout => trivial
  | entered timeout => trivial
  | looping deadline => trivial
  | listening deadline appends => exact Nat.le_trans hp h.appends
  | watching deadline seen w =>
      obtain ⟨happends, hcalls, hw⟩ := hp
      refine ⟨Nat.le_trans happends h.appends, Nat.le_trans hcalls h.calls, ?_⟩
      cases w with
      | locking => trivial
      | reading found rest => exact h.readsOn happends hw
      | missing found p rest => exact h.readsOn happends hw
      | fetched => exact h.unread happends hw
      | reopened => exact ⟨h.unread happends hw.1, h.closes hcalls hw.2⟩
      | checked => exact ⟨h.unread happends hw.1, h.closes hcalls hw.2.1, h.wakes hcalls hw.2.2⟩
      | parked => exact ⟨h.unread happends hw.1, h.closes hcalls hw.2.1, h.wakes hcalls hw.2.2⟩

/-- The polls have been called on. -/
theorem keeps_call (calling : Prop) : v.Keeps { v with inlet := v.inlet.call, calling } me :=
  ⟨Nat.le_refl _, Nat.le_succ _, Or.inr, fun _ => Or.inl (Nat.lt_succ_self _), fun _ _ => Or.inl,
    Or.inl, Or.inl, fun _ n h => ⟨n, Nat.le_refl n, h⟩, fun h => ⟨h, rfl⟩⟩

/-- More is pending. -/
theorem Keeps.pending {w : View} (h : v.Keeps w me) (hl : v'.log = w.log) (hi : v'.inlet = w.inlet)
    (ha : w.announcing → v'.announcing) (hc : w.calling → v'.calling) : v.Keeps v' me := by
  obtain ⟨log, inlet, announcing, calling⟩ := v'
  subst hl hi
  exact ⟨h.appends, h.calls, fun hv => (h.announced hv).imp_right ha,
    fun hv => (h.called hv).imp_right hc, fun p n hlt => (h.written p n hlt).imp_right ha,
    fun hclosed => (h.closed hclosed).imp_right hc, fun hwoken => (h.woken hwoken).imp_right hc,
    h.forward, h.held⟩

/-- Nothing has happened to the reader, and nothing to the log but what is announced. -/
theorem Keeps.of_inlet (hi : v'.inlet = v.inlet) (hn : v.log.appends ≤ v'.log.appends)
    (ha : v.announcing → v.log.appends < v'.log.appends ∨ v'.announcing)
    (hw : ∀ p n, n < (v'.log.written p).length → n < (v.log.written p).length ∨ v'.announcing)
    (hc : v.calling → v'.calling) : v.Keeps v' me := by
  refine ⟨hn, Nat.le_of_eq (by rw [hi]), ha, fun h => Or.inr (hc h), hw, ?_, ?_, ?_, ?_⟩ <;> rw [hi]
  · exact Or.inl
  · exact Or.inl
  · exact fun p n h => ⟨n, Nat.le_refl n, h⟩
  · exact fun h => ⟨h, rfl⟩

/-- A flag has been set, and the polls have yet to be called on. -/
theorem Keeps.of_flag (hl : v'.log = v.log) (hh : v'.inlet.holder = v.inlet.holder)
    (hp : v'.inlet.reader.positions = v.inlet.reader.positions)
    (hn : v'.inlet.reader.calls = v.inlet.reader.calls) (ha : v.announcing → v'.announcing)
    (hc : v'.calling) : v.Keeps v' me := by
  refine ⟨Nat.le_of_eq (by rw [hl]), Nat.le_of_eq hn.symm, fun h => Or.inr (ha h),
    fun _ => Or.inr hc, ?_, fun _ => Or.inr hc, fun _ => Or.inr hc, ?_, ?_⟩
  · rw [hl]
    exact fun _ _ => Or.inl
  · rw [hp]
    exact fun p n h => ⟨n, Nat.le_refl n, h⟩
  · exact fun h => ⟨hh.trans h, hp⟩

end View

namespace Polling

variable {κ ν : Type} {schema : Schema κ ν} {now : Nat} {v : View} {me : TaskId}

/-- The poll is reading through the positions. -/
def reads : Polling κ ν → Bool
  | .watching _ _ (.reading _ _) | .watching _ _ (.missing _ _ _) => true
  | _ => false

/-- The poll that an access leaves is reading through the positions. -/
def readsOn : Progress (Polling κ ν) (Except LogError (Batch κ ν)) → Bool
  | .waiting p => p.reads
  | .done _ => false

/-- What an access of a poll does to its inlet: nothing, or it takes the positions, gives them back
as they were or moved on, or takes the wakeup. -/
inductive Touches (v : View) (me : TaskId) (before after : Bool) : Inlet → Prop
  | nothing (same : after = before) : Touches v me before after v.inlet
  | wakes (same : after = before) : Touches v me before after v.inlet.takeWakeup
  | takes (free : v.inlet.holder = none) (begun : after = true) :
      Touches v me before after { v.inlet with holder := some me }
  | givesUp (holder : v.inlet.holder = some me) :
      Touches v me before after { v.inlet with holder := none }
  | givesBack (moved : List (Partition × Nat)) (holder : v.inlet.holder = some me)
      (forward : ∀ e ∈ moved, ∃ n ≤ e.2, (e.1, n) ∈ v.inlet.reader.positions.entries) :
      Touches v me before after (v.inlet.giveBack moved)

theorem step_touches (schema : Schema κ ν) {p : Polling κ ν} (hp : v.Holds me p)
    (hr : p.ready now v.log v.inlet = true) :
    Touches v me p.reads (readsOn (step schema now v.log me v.inlet p).1)
      (step schema now v.log me v.inlet p).2 := by
  cases p with
  | entering timeout =>
      simp only [step]
      split <;> exact .nothing rfl
  | entered timeout =>
      simp only [step]
      split
      · exact .wakes rfl
      · exact .nothing rfl
  | looping deadline => exact .nothing rfl
  | listening deadline appends => exact .nothing rfl
  | watching deadline seen w =>
      obtain ⟨-, -, hw⟩ := hp
      cases w with
      | locking => exact .takes (Option.isNone_iff_eq_none.1 hr) rfl
      | reading found rest =>
          cases rest with
          | nil =>
              simp only [step, watch]
              split <;> exact .givesBack found.moved hw.holder hw.forward
          | cons a rest =>
              obtain ⟨p, position⟩ := a
              simp only [step, watch]
              split
              · exact .nothing rfl
              · split
                · exact .nothing rfl
                · split
                  · exact .givesUp hw.holder
                  · exact .nothing rfl
      | missing found p rest =>
          simp only [step, watch]
          split
          · exact .nothing rfl
          · exact .givesUp hw.holder
      | fetched =>
          simp only [step, watch]
          split <;> exact .nothing rfl
      | reopened =>
          simp only [step, watch]
          split
          · exact .wakes rfl
          · exact .nothing rfl
      | checked =>
          simp only [step, watch]
          split <;> exact .nothing rfl
      | parked => exact .nothing rfl

variable {before after : Bool} {i : Inlet}

/-- Whoever holds the positions after an access is reading through them. -/
theorem Touches.holder (h : Touches v me before after i)
    (hme : v.inlet.holder = some me → before = true) {u : TaskId} (hu : i.holder = some u) :
    (u ≠ me ∧ v.inlet.holder = some u) ∨ (u = me ∧ after = true) := by
  have hsame : after = before → v.inlet.holder = some u →
      (u ≠ me ∧ v.inlet.holder = some u) ∨ (u = me ∧ after = true) := by
    intro hsame hholder
    by_cases hu : u = me
    · exact Or.inr ⟨hu, hsame.trans (hme (hu ▸ hholder))⟩
    · exact Or.inl ⟨hu, hholder⟩
  cases h with
  | nothing same => exact hsame same hu
  | wakes same => exact hsame same hu
  | takes free begun => exact Or.inr ⟨(Option.some.inj hu).symm, begun⟩
  | givesUp holder => cases hu
  | givesBack moved holder forward => cases hu

theorem mem_giveBack {moved : List (Partition × Nat)} {i : Inlet}
    (hm : ∀ e ∈ moved, ∃ n ≤ e.2, (e.1, n) ∈ i.reader.positions.entries) {p : Partition} {n : Nat}
    (h : (p, n) ∈ (i.giveBack moved).reader.positions.entries) :
    ∃ k ≤ n, (p, k) ∈ i.reader.positions.entries := by
  rcases Reader.mem_foldl_insert h with h | h
  · exact hm (p, n) h
  · exact ⟨n, Nat.le_refl n, h⟩

/-- An access of a poll leaves to the others what they count on. -/
theorem Touches.keeps (h : Touches v me before after i) {u : TaskId} (hu : u ≠ me) :
    v.Keeps { v with inlet := i } u := by
  have hreader : ∀ {j : Inlet}, j.reader = v.inlet.reader →
      (v.inlet.holder = some u → j.holder = some u) → v.Keeps { v with inlet := j } u := by
    intro j hreader hheld
    refine ⟨Nat.le_refl _, Nat.le_of_eq (congrArg Reader.calls hreader.symm), Or.inr,
      Or.inr, fun _ _ => Or.inl, ?_, ?_, ?_, ?_⟩
    · exact fun h => Or.inl (by rw [← hreader]; exact h)
    · exact fun h => Or.inl (by rw [← hreader]; exact h)
    · exact fun p n h => ⟨n, Nat.le_refl n, by rw [← hreader]; exact h⟩
    · exact fun h => ⟨hheld h, by rw [hreader]⟩
  have hother : v.inlet.holder = some me → ¬ v.inlet.holder = some u := by
    intro hme hholder
    exact hu (Option.some.inj (hholder.symm.trans hme))
  cases h with
  | nothing same => exact hreader rfl id
  | takes free begun =>
      refine hreader rfl fun hholder => ?_
      rw [free] at hholder
      cases hholder
  | givesUp holder => exact hreader rfl fun hholder => absurd hholder (hother holder)
  | wakes same =>
      refine ⟨Nat.le_refl _, Nat.le_refl _, Or.inr, Or.inr, fun _ _ => Or.inl, Or.inl, ?_, ?_, ?_⟩
      · intro hwoken
        cases hwoken
      · exact fun p n h => ⟨n, Nat.le_refl n, h⟩
      · exact fun hholder => ⟨hholder, rfl⟩
  | givesBack moved holder forward =>
      refine ⟨Nat.le_refl _, Nat.le_refl _, Or.inr, Or.inr, fun _ _ => Or.inl, Or.inl, Or.inl,
        ?_, ?_⟩
      · exact fun p n h => mem_giveBack forward h
      · exact fun hholder => absurd hholder (hother holder)

/-- What the next access of a poll that reads on may count on, once a partition is read. -/
theorem readsOn_next {seen : Reader.Seen} {nothing nothing' : Prop} {p : Partition} {n : Nat}
    {moved moved' rest : List (Partition × Nat)}
    (h : v.ReadsOn me seen nothing moved ((p, n) :: rest)) (hn : nothing' → nothing)
    (hempty : nothing' → (v.log.written p).length ≤ n)
    (hmoved : ∀ e ∈ moved', e ∈ moved ∨ e.1 = p ∧ n ≤ e.2) :
    v.ReadsOn me seen nothing' moved' rest := by
  refine ⟨h.holder, fun e he => h.within e (List.mem_cons_of_mem _ he), fun e he => ?_, ?_⟩
  · rcases hmoved e he with he | ⟨rfl, hle⟩
    · exact h.forward e he
    · exact ⟨n, hle, h.within _ List.mem_cons_self⟩
  · rintro hnothing ⟨q, k, hmem, hread, hlt⟩
    refine h.unread (hn hnothing) ⟨q, k, hmem, fun hmem => ?_, hlt⟩
    rcases List.mem_cons.1 hmem with hsame | hmem
    · cases hsame
      exact absurd hlt (Nat.not_lt.2 (hempty hnothing))
    · exact hread hmem

variable {seen : Reader.Seen} {deadline : Nat} {p' : Polling κ ν}

/-- An access that reads a partition leaves a poll that may count on as much. -/
theorem holds_read (schema : Schema κ ν) (now : Nat) {found : Reader.Found κ ν} {p : Partition}
    {position : Nat} {rest : List (Partition × Nat)} (hmax : v.log.settings.maxPollRecords ≠ 0)
    (happends : seen.appends ≤ v.log.appends) (hcalls : seen.calls ≤ v.inlet.reader.calls)
    (hw : v.ReadsOn me seen (found.records = []) found.moved ((p, position) :: rest))
    (h : (watch schema now v.log me v.inlet deadline seen
      (.reading found ((p, position) :: rest))).1 = .waiting p') :
    { v with
      inlet := (watch schema now v.log me v.inlet deadline seen
        (.reading found ((p, position) :: rest))).2 }.Holds me p' := by
  by_cases hroom : v.log.settings.maxPollRecords - found.records.length = 0
  · simp only [watch, if_pos hroom] at h ⊢
    cases h
    refine ⟨happends, hcalls, hw.holder, by simp, hw.forward, fun hnone => ?_⟩
    -- there is room for a first record
    rw [hnone] at hroom
    exact absurd hroom (by simpa using hmax)
  · simp only [watch, if_neg hroom] at h ⊢
    cases hread : v.log.read p position
        (v.log.settings.maxPollRecords - found.records.length) with
    | none =>
        rw [hread] at h
        cases h
        refine ⟨happends, hcalls, readsOn_next hw id (fun _ => ?_) fun e he => Or.inl he⟩
        simp [Log.read_eq_none hread]
    | some es =>
        rw [hread] at h
        cases hrs : Reader.decodeEntries schema p position es with
        | error e => simp [hrs] at h
        | ok rs =>
            simp only [hrs] at h ⊢
            cases h
            refine ⟨happends, hcalls, readsOn_next hw ?_ ?_ ?_⟩
            · exact fun hnone => (List.append_eq_nil_iff.1 hnone).1
            · intro hnone
              have hlen := (Reader.decodeEntries_shows hrs).1
              rw [(List.append_eq_nil_iff.1 hnone).2, List.length_nil] at hlen
              have hcut := congrArg List.length (Log.read_eq_some hread)
              rw [← hlen, List.length_take, List.length_drop] at hcut
              show (v.log.written p).length ≤ position
              omega
            · intro e he
              rcases List.mem_append.1 he with he | he
              · exact Or.inl he
              · split at he
                · cases he
                · rw [List.mem_singleton.1 he]
                  exact Or.inr ⟨rfl, Nat.le_add_right _ _⟩

/-- An access that gives the positions back leaves a poll that may count on as much. -/
theorem holds_given (schema : Schema κ ν) (now : Nat) {found : Reader.Found κ ν}
    (happends : seen.appends ≤ v.log.appends) (hcalls : seen.calls ≤ v.inlet.reader.calls)
    (hw : v.ReadsOn me seen (found.records = []) found.moved [])
    (h : (watch schema now v.log me v.inlet deadline seen (.reading found [])).1 = .waiting p') :
    { v with
      inlet := (watch schema now v.log me v.inlet deadline seen
        (.reading found [])).2 }.Holds me p' := by
  simp only [watch] at h ⊢
  split at h
  next hnone =>
    cases h
    rw [if_pos hnone]
    refine ⟨happends, hcalls, ?_⟩
    rintro ⟨p, n, hmem, -, hlt⟩
    obtain ⟨k, hk, hold⟩ := mem_giveBack hw.forward hmem
    exact hw.unread (by simpa using hnone)
      ⟨p, k, hold, List.not_mem_nil, Nat.lt_of_le_of_lt hk hlt⟩
  next => cases h

/-- An access of a poll leaves a poll that may count on as much. -/
theorem holds_step (schema : Schema κ ν) (now : Nat) {p : Polling κ ν}
    (hmax : v.log.settings.maxPollRecords ≠ 0) (hp : v.Holds me p)
    (h : (step schema now v.log me v.inlet p).1 = .waiting p') :
    { v with inlet := (step schema now v.log me v.inlet p).2 }.Holds me p' := by
  cases p with
  | entering timeout =>
      simp only [step] at h ⊢
      split at h
      · cases h
      · cases h
        trivial
  | entered timeout =>
      simp only [step] at h ⊢
      split at h
      · cases h
      · cases h
        trivial
  | looping deadline =>
      cases h
      exact Nat.le_refl _
  | listening deadline appends =>
      cases h
      exact ⟨hp, Nat.le_refl _, trivial⟩
  | watching deadline seen w =>
      obtain ⟨happends, hcalls, hw⟩ := hp
      cases w with
      | locking =>
          cases h
          refine ⟨happends, hcalls, rfl, fun e he => he, by simp, ?_⟩
          rintro - ⟨p, n, hmem, hread, -⟩
          exact absurd hmem hread
      | reading found rest =>
          cases rest with
          | nil => exact holds_given schema now happends hcalls hw h
          | cons a rest => exact holds_read schema now hmax happends hcalls hw h
      | missing found p rest =>
          simp only [step, watch] at h ⊢
          split at h
          next htopic =>
            cases h
            rw [if_pos htopic]
            exact ⟨happends, hcalls, hw⟩
          next => cases h
      | fetched =>
          simp only [step, watch] at h ⊢
          split at h
          next => cases h
          next hopen =>
            cases h
            rw [if_neg hopen]
            exact ⟨happends, hcalls, hw, fun hclosed => absurd hclosed hopen⟩
      | reopened =>
          simp only [step, watch] at h ⊢
          split at h
          next => cases h
          next hstill =>
            cases h
            rw [if_neg hstill]
            exact ⟨happends, hcalls, hw.1, hw.2, fun hwoken => absurd hwoken hstill⟩
      | checked =>
          simp only [step, watch] at h ⊢
          split at h
          next => cases h
          next htime =>
            cases h
            rw [if_neg htime]
            exact ⟨happends, hcalls, hw⟩
      | parked =>
          cases h
          trivial

end Polling
end ReplicatedLog
