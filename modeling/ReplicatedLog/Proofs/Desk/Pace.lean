import ReplicatedLog.Proofs.Channel.Waking
import ReplicatedLog.Proofs.Log.Advancing

/-!
# How far a poll goes at a time

A poll looks at the flag of its reader, fetches, and looks at the flag again.  Either it does all
this at a time, or others come in between.

* `Reader.Effect`: how a step of a poll can end, and what it makes of the reader, and
  `Reader.FindsNothing`: a fetch finds nothing;
* `Pace`: a way to cut a poll into steps, each of which has one of these effects;
* `Pace.whole` goes from one wait to the next, which is what `Reader.stepPoll` does, and
  `Pace.byLooks` stops before the fetch and after it;
* `stepPoll_eq_looks`: when nothing comes in between, the looks together are a whole step.
-/

namespace ReplicatedLog

namespace Progress

variable {σ ρ : Type}

/-- The result of an operation that is over. -/
def result : Progress σ ρ → Option ρ
  | waiting _ => none
  | done r => some r

/-- What is left of an operation that goes on. -/
def rest : Progress σ ρ → Option σ
  | waiting s => some s
  | done _ => none

theorem result_eq_some_iff {p : Progress σ ρ} {r : ρ} : p.result = some r ↔ p = done r := by
  cases p <;> simp [result]

theorem rest_eq_some_iff {p : Progress σ ρ} {s : σ} : p.rest = some s ↔ p = waiting s := by
  cases p <;> simp [rest]

end Progress

variable {κ ν : Type} {schema : Schema κ ν} {now : Nat} {log : Log} {r : Reader}

namespace Reader

section Effects

/-- A fetch that is made now finds nothing. -/
def FindsNothing (schema : Schema κ ν) (log : Log) (r : Reader) : Prop :=
  ∃ b, (r.fetch schema log).1 = .ok b ∧ b.isEmpty = true

/-- If a fetch may take something and finds nothing, nothing is unread. -/
theorem FindsNothing.not_hasUnread (h : r.FindsNothing schema log)
    (hroom : log.settings.maxPollRecords ≠ 0) : ¬ r.HasUnread log := by
  obtain ⟨b, hfetch, hempty⟩ := h
  exact (fetch_empty hroom (Prod.ext hfetch rfl) hempty).2

/-- How a step of a poll can end, and what it makes of the reader. -/
inductive Effect (schema : Schema κ ν) (log : Log) (r : Reader) :
    Option (Except LogError (Batch κ ν)) → Reader → Prop
  | waits : Effect schema log r none r
  | brings {b : Batch κ ν} {r' : Reader} (fetched : r.fetch schema log = (.ok b, r'))
      (full : b.isEmpty = false) : Effect schema log r (some (.ok b)) r'
  /-- Nothing is there, nor is a wakeup pending. -/
  | nothing (calm : r.isWoken = false) : Effect schema log r (some (.ok .empty)) r
  | wakes (woken : r.isWoken = true) :
      Effect schema log r (some (.error .wakeup)) { r with isWoken := false }
  | fails {err : LogError} {p : Partition} (assigned : p ∈ r.assignment)
      (unreadable : Unreadable schema log p err) : Effect schema log r (some (.error err)) r

theorem Effect.isClosed {result : Option (Except LogError (Batch κ ν))} {r' : Reader}
    (h : r.Effect schema log result r') : r'.isClosed = r.isClosed := by
  cases h with
  | brings hf full => exact fetch_isClosed hf
  | waits => rfl
  | nothing calm => rfl
  | wakes woken => rfl
  | fails assigned unreadable => rfl

/-- An attempt has one of the effects; it brings an empty batch only when its time is up and the
fetch has found nothing. -/
theorem attempt_effect (h : r.isClosed = false) (deadline : Nat) :
    Effect schema log r (r.attempt schema now log deadline).1.result
        (r.attempt schema now log deadline).2 ∧
      (∀ s, (r.attempt schema now log deadline).1 = .waiting s →
        s = .parked deadline (seenNow log r)) ∧
      ∀ b, (r.attempt schema now log deadline).1 = .done (.ok b) → b.isEmpty = true →
        deadline ≤ now ∧ (r.fetch schema log).1 = .ok b := by
  have hends := attempt_attempts schema now log r deadline
  generalize r.attempt schema now log deadline = outcome at hends ⊢
  cases hends with
  | fails hf =>
      obtain ⟨⟨p, hp, hunreadable⟩, rfl⟩ := fetch_fails hf
      exact ⟨.fails hp hunreadable, nofun, nofun⟩
  | brings hf hsome =>
      refine ⟨.brings hf hsome, nofun, fun b hb hempty => ?_⟩
      cases hb
      exact absurd (hsome.symm.trans hempty) nofun
  | refuses hf hnone hu =>
      obtain rfl := fetch_nothing hf hnone
      rcases ensureUsable_of_open h with ⟨hwoken, hu'⟩ | ⟨-, hu'⟩
      · rw [hu] at hu'
        cases hu'
        exact ⟨.wakes hwoken, nofun, nofun⟩
      · rw [hu] at hu'
        cases hu'
  | @expires b r' hf hnone hu hdue =>
      obtain rfl := fetch_nothing hf hnone
      obtain rfl : b = .empty := congrArg Batch.mk (List.isEmpty_iff.1 hnone)
      refine ⟨.nothing (ensureUsable_ok hu).2.2, nofun, fun b hb _ => ?_⟩
      cases hb
      exact ⟨hdue, congrArg Prod.fst hf⟩
  | waits hf hnone hu hearly =>
      obtain rfl := fetch_nothing hf hnone
      refine ⟨.waits, fun s hs => ?_, nofun⟩
      cases hs
      rfl

end Effects

section Flags

theorem endOffsets_isClosed {ps : List Partition} :
    (r.endOffsets log ps).2.isClosed = r.isClosed := by
  have h : r.ensureUsable.2.isClosed = r.isClosed := by
    rw [ensureUsable]
    split
    · rfl
    · split <;> rfl
  rw [endOffsets]
  split
  next heq =>
    rw [heq] at h
    exact h
  next heq =>
    rw [heq] at h
    exact h

theorem assign_isClosed {ps : List Partition} : (r.assign ps).2.isClosed = r.isClosed := by
  rw [assign]
  split <;> rfl

theorem seekToBeginning_isClosed {ps : List Partition} :
    (r.seekToBeginning ps).2.isClosed = r.isClosed := by
  rw [seekToBeginning]
  split <;> rfl

theorem assign_isWoken (r : Reader) (ps : List Partition) :
    (r.assign ps).2.isWoken = r.isWoken := by
  rw [assign]
  split <;> rfl

theorem seekToBeginning_isWoken (r : Reader) (ps : List Partition) :
    (r.seekToBeginning ps).2.isWoken = r.isWoken := by
  rw [seekToBeginning]
  split <;> rfl

end Flags

end Reader

/-- A way to cut polls into steps.  Each step has one of the effects; the first one heeds a pending
wakeup, a poll ends without records only when its time is up, and it is known of a poll between two
steps whether the last one has fetched and found nothing. -/
structure Pace (schema : Schema κ ν) where
  /-- A poll between two steps. -/
  Going : Type
  start : (timeout : Nat) → Going
  go : (now : Nat) → (log : Log) → Reader → Going →
    Progress Going (Except LogError (Batch κ ν)) × Reader
  /-- When the time of a poll is up, as seen at a time. -/
  due : (now : Nat) → Going → Nat
  /-- The last step has fetched and found nothing. -/
  found : Going → Prop
  effect : ∀ (now : Nat) (log : Log) {r : Reader} (s : Going), r.isClosed = false →
    r.Effect schema log (go now log r s).1.result (go now log r s).2
  heeds : ∀ (now : Nat) (log : Log) {r : Reader} (timeout : Nat), r.isClosed = false →
    r.isWoken = true → (go now log r (start timeout)).1 = .done (.error .wakeup)
  due_start : ∀ now timeout : Nat, due now (start timeout) = now + timeout
  start_found : ∀ timeout : Nat, ¬ found (start timeout)
  due_go : ∀ {now later : Nat} {log : Log} {r : Reader} {s s' : Going}, r.isClosed = false →
    (go now log r s).1 = .waiting s' → due later s' = due now s
  late : ∀ {now : Nat} {log : Log} {r : Reader} {s : Going} {b : Batch κ ν}, r.isClosed = false →
    (go now log r s).1 = .done (.ok b) → b.isEmpty = true → due now s ≤ now
  finds : ∀ {now : Nat} {log : Log} {r : Reader} {s s' : Going},
    (go now log r s).1 = .waiting s' → found s' → r.FindsNothing schema log

namespace Pace

section Whole

open Reader

theorem stepPoll_started (h : r.isClosed = false) (timeout : Nat) :
    r.stepPoll schema now log (.started timeout) =
      if r.isWoken then (.done (.error .wakeup), { r with isWoken := false })
      else r.attempt schema now log (now + timeout) := by
  rcases ensureUsable_of_open h with ⟨hw, hu⟩ | ⟨hw, hu⟩
  · simp only [stepPoll, hu, hw]
    rfl
  · simp only [stepPoll, hu, hw]
    rfl

/-- From one wait of a poll to the next. -/
def whole (schema : Schema κ ν) : Pace schema where
  Going := Poll
  start := .started
  go now log r s := r.stepPoll schema now log s
  due
    | now, .started timeout => now + timeout
    | _, .parked deadline _ => deadline
  found := fun _ => False
  effect := by
    rintro now log r (timeout | ⟨deadline, seen⟩) h
    · rw [stepPoll_started h]
      split
      next hw => exact .wakes hw
      next => exact (attempt_effect h _).1
    · exact (attempt_effect h deadline).1
  heeds := by
    rintro now log r timeout h hw
    rw [stepPoll_started h, if_pos hw]
  due_start := fun _ _ => rfl
  start_found := fun _ => id
  due_go := by
    rintro now later log r (timeout | ⟨deadline, seen⟩) s' h hs
    · rw [stepPoll_started h] at hs
      split at hs
      · cases hs
      · rw [(attempt_effect h _).2.1 s' hs]
    · rw [(attempt_effect h deadline).2.1 s' hs]
  late := by
    rintro now log r (timeout | ⟨deadline, seen⟩) b h hb hempty
    · rw [stepPoll_started h] at hb
      split at hb
      · cases hb
      · exact ((attempt_effect h _).2.2 b hb hempty).1
    · exact ((attempt_effect h deadline).2.2 b hb hempty).1
  finds := fun _ hfound => hfound.elim

/-- Where polls go from one wait to the next, one that brings nothing has just found nothing. -/
theorem whole_finds {s : (whole schema).Going} {b : Batch κ ν} (h : r.isClosed = false)
    (hb : ((whole schema).go now log r s).1 = .done (.ok b)) (hempty : b.isEmpty = true) :
    r.FindsNothing schema log := by
  have hattempt : ∀ deadline, (r.attempt schema now log deadline).1 = .done (.ok b) →
      r.FindsNothing schema log := fun deadline hb =>
    ⟨b, ((attempt_effect h deadline).2.2 b hb hempty).2, hempty⟩
  cases s with
  | parked deadline seen => exact hattempt deadline hb
  | started timeout =>
      have hstep : (r.stepPoll schema now log (.started timeout)).1 = .done (.ok b) := hb
      rw [stepPoll_started h] at hstep
      split at hstep
      · cases hstep
      · exact hattempt _ hstep

end Whole

section Looks

open Reader

/-- A poll between two looks. -/
inductive Look
  | entering (timeout : Nat)
  /-- No wakeup was pending at first. -/
  | entered (deadline : Nat)
  /-- There was nothing to read. -/
  | fetched (deadline : Nat) (seen : Seen)
  /-- No wakeup was pending then either, and time was left. -/
  | parked (deadline : Nat) (seen : Seen)

/-- The fetch between the two looks at the flags. -/
def lookForRecords (schema : Schema κ ν) (log : Log) (r : Reader) (deadline : Nat) :
    Progress Look (Except LogError (Batch κ ν)) × Reader :=
  let seen := seenNow log r
  match r.fetch schema log with
  | (.error e, r) => (.done (.error e), r)
  | (.ok b, r) =>
      if b.isEmpty then (.waiting (.fetched deadline seen), r) else (.done (.ok b), r)

/-- The next look of a poll: at the flags, at the log, and at the flags and the clock. -/
def look (schema : Schema κ ν) (now : Nat) (log : Log) (r : Reader) :
    Look → Progress Look (Except LogError (Batch κ ν)) × Reader
  | .entering timeout =>
      match r.ensureUsable with
      | (.error e, r) => (.done (.error e), r)
      | (.ok (), r) => (.waiting (.entered (now + timeout)), r)
  | .entered deadline => lookForRecords schema log r deadline
  | .parked deadline _ => lookForRecords schema log r deadline
  | .fetched deadline seen =>
      match r.ensureUsable with
      | (.error e, r) => (.done (.error e), r)
      | (.ok (), r) =>
          if deadline ≤ now then (.done (.ok .empty), r)
          else (.waiting (.parked deadline seen), r)

/-- A look at the flags, unless the poll waits or is over. -/
def lookOn (schema : Schema κ ν) (now : Nat) (log : Log) :
    Progress Look (Except LogError (Batch κ ν)) × Reader →
      Progress Look (Except LogError (Batch κ ν)) × Reader
  | (.waiting (.parked deadline seen), r) => (.waiting (.parked deadline seen), r)
  | (.waiting s, r) => look schema now log r s
  | (.done result, r) => (.done result, r)

/-- Between two waits a poll is between two looks. -/
def Look.ofPoll : Poll → Look
  | .started timeout => .entering timeout
  | .parked deadline seen => .parked deadline seen

theorem attempt_eq_looks (schema : Schema κ ν) (now : Nat) (log : Log) (r : Reader)
    (deadline : Nat) :
    lookOn schema now log (lookForRecords schema log r deadline) =
      ((r.attempt schema now log deadline).1.map Look.ofPoll id,
        (r.attempt schema now log deadline).2) := by
  rcases fetch_cases schema log r with ⟨err, p, -, -, hf⟩ | ⟨b, r', hsome, hf⟩ | hf
  · simp only [lookForRecords, attempt, hf]
    rfl
  · simp only [lookForRecords, attempt, hf, hsome]
    rfl
  · rcases hu : r.ensureUsable with ⟨err | ⟨⟨⟩⟩, r'⟩
    · simp only [lookForRecords, attempt, hf, Batch.isEmpty, Batch.empty, List.isEmpty_nil, if_true,
        lookOn, look, hu]
      rfl
    · by_cases hover : deadline ≤ now
      · simp only [lookForRecords, attempt, hf, Batch.isEmpty, Batch.empty, List.isEmpty_nil,
          if_true, lookOn, look, hu, if_pos hover]
        rfl
      · simp only [lookForRecords, attempt, hf, Batch.isEmpty, Batch.empty, List.isEmpty_nil,
          if_true, lookOn, look, hu, if_neg hover]
        rfl

/-- When nothing comes in between, the looks of a poll are a step from one wait to the next. -/
theorem stepPoll_eq_looks (schema : Schema κ ν) (now : Nat) (log : Log) (r : Reader) (s : Poll) :
    (match s with
      | .started timeout =>
          lookOn schema now log (lookOn schema now log (look schema now log r (.entering timeout)))
      | .parked deadline seen =>
          lookOn schema now log (look schema now log r (.parked deadline seen))) =
      ((r.stepPoll schema now log s).1.map Look.ofPoll id, (r.stepPoll schema now log s).2) := by
  cases s with
  | parked deadline seen => exact attempt_eq_looks schema now log r deadline
  | started timeout =>
      rcases hu : r.ensureUsable with ⟨err | ⟨⟨⟩⟩, r'⟩
      · simp only [look, stepPoll, hu]
        rfl
      · simp only [look, stepPoll, hu, lookOn]
        exact attempt_eq_looks schema now log r' (now + timeout)

theorem lookForRecords_effect (schema : Schema κ ν) (log : Log) (r : Reader) (deadline : Nat) :
    Effect schema log r (lookForRecords schema log r deadline).1.result
        (lookForRecords schema log r deadline).2 ∧
      (∀ s, (lookForRecords schema log r deadline).1 = .waiting s →
        s = .fetched deadline (seenNow log r) ∧ r.FindsNothing schema log) ∧
      ∀ b, (lookForRecords schema log r deadline).1 = .done (.ok b) → b.isEmpty = false := by
  rcases fetch_cases schema log r with ⟨err, p, hp, hunreadable, hf⟩ | ⟨b, r', hsome, hf⟩ | hf
  · simp only [lookForRecords, hf]
    exact ⟨.fails hp hunreadable, nofun, nofun⟩
  · simp only [lookForRecords, hf, hsome]
    refine ⟨.brings hf hsome, nofun, ?_⟩
    rintro b' hb'
    cases hb'
    exact hsome
  · simp only [lookForRecords, hf]
    refine ⟨.waits, ?_, nofun⟩
    rintro s hs
    cases hs
    exact ⟨rfl, .empty, by rw [hf], rfl⟩

/-- The look with which a poll ends without records is the second one at the flags, and the time of
the poll is up. -/
theorem look_empty {s : Look} {b : Batch κ ν} (h : r.isClosed = false)
    (hb : (look schema now log r s).1 = .done (.ok b)) (hempty : b.isEmpty = true) :
    ∃ deadline seen, s = .fetched deadline seen ∧ deadline ≤ now := by
  have hfetch : ∀ deadline, (lookForRecords schema log r deadline).1 = .done (.ok b) → False :=
    fun deadline hb => by
      rw [(lookForRecords_effect schema log r deadline).2.2 b hb] at hempty
      cases hempty
  cases s with
  | entered deadline => exact (hfetch deadline hb).elim
  | parked deadline seen => exact (hfetch deadline hb).elim
  | entering timeout =>
      rcases ensureUsable_of_open h with ⟨-, hu⟩ | ⟨-, hu⟩
      · simp only [look, hu] at hb
        cases hb
      · simp only [look, hu] at hb
        cases hb
  | fetched deadline seen =>
      rcases ensureUsable_of_open h with ⟨-, hu⟩ | ⟨-, hu⟩
      · simp only [look, hu] at hb
        cases hb
      · simp only [look, hu] at hb
        split at hb
        next hover => exact ⟨deadline, seen, rfl, hover⟩
        next => cases hb

/-- One look at a time. -/
def byLooks (schema : Schema κ ν) : Pace schema where
  Going := Look
  start := .entering
  go now log r s := look schema now log r s
  due
    | now, .entering timeout => now + timeout
    | _, .entered deadline => deadline
    | _, .fetched deadline _ => deadline
    | _, .parked deadline _ => deadline
  found
    | .fetched _ _ => True
    | _ => False
  effect := by
    rintro now log r s h
    cases s with
    | entered deadline => exact (lookForRecords_effect schema log r deadline).1
    | parked deadline seen => exact (lookForRecords_effect schema log r deadline).1
    | entering timeout =>
        rcases ensureUsable_of_open h with ⟨hw, hu⟩ | ⟨hw, hu⟩
        · simp only [look, hu]
          exact .wakes hw
        · simp only [look, hu]
          exact .waits
    | fetched deadline seen =>
        rcases ensureUsable_of_open h with ⟨hw, hu⟩ | ⟨hw, hu⟩
        · simp only [look, hu]
          exact .wakes hw
        · simp only [look, hu]
          split
          · exact .nothing hw
          · exact .waits
  heeds := by
    rintro now log r timeout h hw
    simp [look, ensureUsable, h, hw]
  due_start := fun _ _ => rfl
  start_found := fun _ => id
  due_go := by
    rintro now later log r s s' h hs
    cases s with
    | entered deadline => rw [((lookForRecords_effect schema log r deadline).2.1 s' hs).1]
    | parked deadline seen => rw [((lookForRecords_effect schema log r deadline).2.1 s' hs).1]
    | entering timeout =>
        rcases ensureUsable_of_open h with ⟨-, hu⟩ | ⟨-, hu⟩
        · simp only [look, hu] at hs
          cases hs
        · simp only [look, hu] at hs
          cases hs
          rfl
    | fetched deadline seen =>
        rcases ensureUsable_of_open h with ⟨-, hu⟩ | ⟨-, hu⟩
        · simp only [look, hu] at hs
          cases hs
        · simp only [look, hu] at hs
          split at hs
          · cases hs
          · cases hs
            rfl
  late := by
    rintro now log r s b h hb hempty
    obtain ⟨deadline, seen, rfl, hover⟩ := look_empty h hb hempty
    exact hover
  finds := by
    rintro now log r s s' hs hfound
    cases s with
    | entered deadline => exact ((lookForRecords_effect schema log r deadline).2.1 s' hs).2
    | parked deadline seen => exact ((lookForRecords_effect schema log r deadline).2.1 s' hs).2
    | entering timeout =>
        simp only [look] at hs
        split at hs
        · cases hs
        · cases hs
          cases hfound
    | fetched deadline seen =>
        simp only [look] at hs
        split at hs
        · cases hs
        · split at hs
          · cases hs
          · cases hs
            cases hfound

end Looks

end Pace

/-- How finely polls are cut. -/
inductive Grain
  | whole
  | byLooks
  deriving DecidableEq, Repr

/-- The pace of a grain. -/
def Grain.pace (schema : Schema κ ν) : Grain → Pace schema
  | whole => .whole schema
  | byLooks => .byLooks schema

end ReplicatedLog
