import ReplicatedLog.Proofs.Log.Decoding

/-!
# The steps of a poll

What the flags of a reader, a fetch and a step of a poll can come to, said once for any
log and any schema.

* `ensureUsable_cases`: a call fails on a closed reader, takes a pending wakeup, or
  leaves the reader as it is;
* `fetch_frame`: a fetch moves a reader and leaves it otherwise;
* `Attempts` lists the ways in which an attempt can end, and `attempt_attempts`: it
  ends in one of them;
* `stepPoll_cases`: a step of a poll fails at the flags or is an attempt, and
  `stepPoll_of_calm`: it is one if nothing is pending.
-/

namespace ReplicatedLog
namespace Reader

variable {κ ν : Type} {schema : Schema κ ν} {now deadline : Nat} {log : Log} {r r' : Reader}
  {b : Batch κ ν} {err : LogError}

section Flags

/-- What a call on a reader comes to that looks at its flags only. -/
theorem ensureUsable_cases (r : Reader) :
    (r.isClosed = true ∧ r.ensureUsable = (.error .closed, r)) ∨
      (r.isClosed = false ∧ r.isWoken = true ∧
        r.ensureUsable = (.error .wakeup, { r with isWoken := false })) ∨
      (r.isClosed = false ∧ r.isWoken = false ∧ r.ensureUsable = (.ok (), r)) := by
  cases hclosed : r.isClosed with
  | true => exact Or.inl ⟨rfl, by simp [ensureUsable, hclosed]⟩
  | false =>
      cases hwoken : r.isWoken with
      | true => exact Or.inr (Or.inl ⟨rfl, rfl, by simp [ensureUsable, hclosed, hwoken]⟩)
      | false => exact Or.inr (Or.inr ⟨rfl, rfl, by simp [ensureUsable, hclosed, hwoken]⟩)

theorem ensureUsable_of_open (hopened : r.isClosed = false) :
    (r.isWoken = true ∧ r.ensureUsable = (.error .wakeup, { r with isWoken := false })) ∨
      (r.isWoken = false ∧ r.ensureUsable = (.ok (), r)) := by
  rcases ensureUsable_cases r with ⟨hclosed, -⟩ | ⟨-, hu⟩ | ⟨-, hu⟩
  · rw [hclosed] at hopened
    cases hopened
  · exact Or.inl hu
  · exact Or.inr hu

theorem ensureUsable_of_calm (hopened : r.isClosed = false) (hcalm : r.isWoken = false) :
    r.ensureUsable = (.ok (), r) := by
  simp [ensureUsable, hopened, hcalm]

/-- Such a call takes a wakeup at most. -/
theorem ensureUsable_frame {result : Except LogError Unit} (hu : r.ensureUsable = (result, r')) :
    r' = { r with isWoken := r'.isWoken } := by
  rcases ensureUsable_cases r with ⟨-, h⟩ | ⟨-, -, h⟩ | ⟨-, -, h⟩
  · rw [hu] at h
    cases h
    rfl
  · rw [hu] at h
    cases h
    rfl
  · rw [hu] at h
    cases h
    rfl

theorem ensureUsable_positions {result : Except LogError Unit}
    (hu : r.ensureUsable = (result, r')) : r'.positions = r.positions := by
  rw [ensureUsable_frame hu]

theorem ensureUsable_calls {result : Except LogError Unit}
    (hu : r.ensureUsable = (result, r')) : r'.calls = r.calls := by
  rw [ensureUsable_frame hu]

theorem ensureUsable_ok (h : r.ensureUsable = (.ok (), r')) :
    r' = r ∧ r.isClosed = false ∧ r.isWoken = false := by
  rcases ensureUsable_cases r with ⟨-, hu⟩ | ⟨-, -, hu⟩ | ⟨hopened, hcalm, hu⟩
  · rw [hu] at h
    cases h
  · rw [hu] at h
    cases h
  · rw [hu] at h
    cases h
    exact ⟨rfl, hopened, hcalm⟩

/-- A fetch moves the reader and leaves it otherwise. -/
theorem fetch_frame {result : Except LogError (Batch κ ν)}
    (hf : r.fetch schema log = (result, r')) : r' = { r with positions := r'.positions } := by
  unfold fetch at hf
  split at hf <;> cases hf <;> rfl

theorem fetch_isWoken {result : Except LogError (Batch κ ν)}
    (hf : r.fetch schema log = (result, r')) : r'.isWoken = r.isWoken := by
  rw [fetch_frame hf]

theorem fetch_calls {result : Except LogError (Batch κ ν)}
    (hf : r.fetch schema log = (result, r')) : r'.calls = r.calls := by
  rw [fetch_frame hf]

theorem fetch_isClosed {result : Except LogError (Batch κ ν)}
    (hf : r.fetch schema log = (result, r')) : r'.isClosed = r.isClosed := by
  rw [fetch_frame hf]

end Flags

section Attempts

theorem attempt_of_error (hf : r.fetch schema log = (.error err, r')) (now deadline : Nat) :
    r.attempt schema now log deadline = (.done (.error err), r') := by
  simp only [attempt, hf]

/-- With records a poll is over. -/
theorem attempt_of_some (hf : r.fetch schema log = (.ok b, r')) (hsome : b.isEmpty = false)
    (now deadline : Nat) : r.attempt schema now log deadline = (.done (.ok b), r') := by
  simp [attempt, hf, hsome]

/-- Without records a poll looks at the flags, and waits if its time is not up. -/
theorem attempt_of_none (hf : r.fetch schema log = (.ok b, r')) (hnone : b.isEmpty = true)
    (now deadline : Nat) :
    r.attempt schema now log deadline =
      match r'.ensureUsable with
      | (.error err, r'') => (.done (.error err), r'')
      | (.ok (), r'') =>
          if deadline ≤ now then (.done (.ok b), r'')
          else (.waiting (.parked deadline (seenNow log r)), r'') := by
  rcases hu : r'.ensureUsable with ⟨_ | ⟨⟨⟩⟩, r''⟩
  · simp [attempt, hf, hnone, hu]
  · simp [attempt, hf, hnone, hu]

/-- The ways in which an attempt can end. -/
inductive Attempts (schema : Schema κ ν) (now : Nat) (log : Log) (r : Reader) (deadline : Nat) :
    Progress Poll (Except LogError (Batch κ ν)) × Reader → Prop
  /-- The fetch fails. -/
  | fails {err : LogError} {r' : Reader} (hf : r.fetch schema log = (.error err, r')) :
      Attempts schema now log r deadline (.done (.error err), r')
  /-- The fetch brings records. -/
  | brings {b : Batch κ ν} {r' : Reader} (hf : r.fetch schema log = (.ok b, r'))
      (hsome : b.isEmpty = false) : Attempts schema now log r deadline (.done (.ok b), r')
  /-- It brings none, and the reader cannot be used any more. -/
  | refuses {b : Batch κ ν} {r' r'' : Reader} {err : LogError}
      (hf : r.fetch schema log = (.ok b, r')) (hnone : b.isEmpty = true)
      (hu : r'.ensureUsable = (.error err, r'')) :
      Attempts schema now log r deadline (.done (.error err), r'')
  /-- It brings none, and the time is up. -/
  | expires {b : Batch κ ν} {r' : Reader} (hf : r.fetch schema log = (.ok b, r'))
      (hnone : b.isEmpty = true) (hu : r'.ensureUsable = (.ok (), r')) (hdue : deadline ≤ now) :
      Attempts schema now log r deadline (.done (.ok b), r')
  /-- It brings none, and there is time left. -/
  | waits {b : Batch κ ν} {r' : Reader} (hf : r.fetch schema log = (.ok b, r'))
      (hnone : b.isEmpty = true) (hu : r'.ensureUsable = (.ok (), r')) (hearly : now < deadline) :
      Attempts schema now log r deadline (.waiting (.parked deadline (seenNow log r)), r')

theorem attempt_attempts (schema : Schema κ ν) (now : Nat) (log : Log) (r : Reader)
    (deadline : Nat) :
    Attempts schema now log r deadline (r.attempt schema now log deadline) := by
  rcases hf : r.fetch schema log with ⟨err | b, r'⟩
  · rw [attempt_of_error hf]
    exact .fails hf
  · cases hempty : b.isEmpty with
    | false =>
        rw [attempt_of_some hf hempty]
        exact .brings hf hempty
    | true =>
        rw [attempt_of_none hf hempty]
        rcases hu : r'.ensureUsable with ⟨err | ⟨⟨⟩⟩, r''⟩
        · exact .refuses hf hempty hu
        · obtain rfl := (ensureUsable_ok hu).1
          dsimp only
          split
          next hdue => exact .expires hf hempty hu hdue
          next hearly => exact .waits hf hempty hu (Nat.lt_of_not_le hearly)

end Attempts

section Steps

/-- A step of a poll fails at the flags, or is an attempt. -/
theorem stepPoll_cases (schema : Schema κ ν) (now : Nat) (r : Reader) (poll : Poll) :
    (∃ err r', r.ensureUsable = (.error err, r') ∧
        ∀ log, r.stepPoll schema now log poll = (.done (.error err), r')) ∨
      ∃ deadline, ∀ log, r.stepPoll schema now log poll = r.attempt schema now log deadline := by
  cases poll with
  | parked deadline seen => exact Or.inr ⟨deadline, fun log => rfl⟩
  | started timeout =>
      rcases hu : r.ensureUsable with ⟨err | ⟨⟨⟩⟩, r'⟩
      · exact Or.inl ⟨err, r', rfl, fun log => by simp only [stepPoll, hu]⟩
      · obtain rfl := (ensureUsable_ok hu).1
        exact Or.inr ⟨now + timeout, fun log => by simp only [stepPoll, hu]⟩

/-- On a reader that is open, with no wakeup pending, every step of a poll is an attempt. -/
theorem stepPoll_of_calm (hopened : r.isClosed = false) (hcalm : r.isWoken = false)
    (schema : Schema κ ν) (now : Nat) (poll : Poll) :
    ∃ deadline, ∀ log, r.stepPoll schema now log poll = r.attempt schema now log deadline := by
  rcases stepPoll_cases schema now r poll with ⟨err, r', hu, -⟩ | hattempt
  · rw [ensureUsable_of_calm hopened hcalm] at hu
    cases hu
  · exact hattempt

end Steps

end Reader
end ReplicatedLog
