import ReplicatedLog.Proofs.Binary.Delimiting

/-!
# What can go wrong in reading

A reader of the compact binary format breaks off with a fault of reading, never with one that arises
in writing.

* `Composed`: the readers of numbers and of runs of bytes, and whatever is composed of them, with
  the checks that a type makes of what it has read;
* `Composed.not_inWriting`: the fault with which such a reader breaks off does not arise in writing;
* `readId_composed` and the like: what travels through the log is read in this way.
-/

namespace ReplicatedLog
namespace Binary

section Readers

variable {α β : Type}

/-- The faults that come of a check of what has been read. -/
def checkFaults : List Fault :=
  [.neverSupported, .notYetSupported, .badTruth, .badCharacter, .badText, .badOption, .badVariant,
    .badEncoding, .refusedToRead]

/-- The reader takes numbers and runs of bytes off the front, one after the other, and may refuse
what it has taken. -/
inductive Composed : {α : Type} → Parser α → Prop
  | value {α : Type} (a : α) : Composed (pure a)
  | number (last places : Nat) : Composed (readVarint last places)
  | run (n : Nat) : Composed (take n)
  | refuse {α : Type} {fault : Fault} (h : fault ∈ checkFaults) :
      Composed (throw fault : Parser α)
  | bind {α β : Type} {p : Parser α} {f : α → Parser β} (first : Composed p)
      (next : ∀ a, Composed (f a)) : Composed (p >>= f)

/-- A reader of two parts breaks off in the first one or in the second. -/
theorem bind_eq_error {p : Parser α} {f : α → Parser β} {bytes : Bytes} {fault : Fault}
    (h : (p >>= f) bytes = .error fault) :
    p bytes = .error fault ∨ ∃ a rest, p bytes = .ok (a, rest) ∧ f a rest = .error fault := by
  cases hp : p bytes with
  | error fault' =>
      rw [bind_error hp] at h
      cases h
      exact Or.inl rfl
  | ok r =>
      rw [bind_ok (a := r.1) (by rw [hp])] at h
      exact Or.inr ⟨r.1, r.2, rfl, h⟩

theorem readVarint_fault {last places : Nat} {bytes : Bytes} {fault : Fault}
    (h : readVarint last places bytes = .error fault) :
    fault = .unexpectedEnd ∨ fault = .badVarint := by
  induction places generalizing bytes with
  | zero =>
      cases h
      exact Or.inr rfl
  | succ places ih =>
      cases bytes with
      | nil =>
          cases h
          exact Or.inl rfl
      | cons b rest =>
          rw [readVarint] at h
          dsimp only at h
          split at h
          · split at h
            · cases h
              exact Or.inr rfl
            · cases h
          · cases hrest : readVarint last places rest with
            | ok r =>
                rw [hrest] at h
                cases h
            | error fault' =>
                rw [hrest] at h
                cases h
                exact ih hrest

/-- No fault of a reader arises in writing. -/
theorem Composed.not_inWriting {p : Parser α} (h : Composed p) :
    ∀ {bytes : Bytes} {fault : Fault}, p bytes = .error fault → fault.inWriting = false := by
  induction h with
  | value a =>
      intro bytes fault hfault
      cases hfault
  | number last places =>
      intro bytes fault hfault
      rcases readVarint_fault hfault with rfl | rfl <;> rfl
  | run n =>
      intro bytes fault hfault
      rw [take] at hfault
      split at hfault
      · cases hfault
        rfl
      · cases hfault
  | @refuse α fault hmem =>
      intro bytes fault' hfault
      cases hfault
      have hall : ∀ fault ∈ checkFaults, fault.inWriting = false := by decide
      exact hall fault hmem
  | bind _ _ ihfirst ihnext =>
      intro bytes fault hfault
      rcases bind_eq_error hfault with hfirst | ⟨a, rest, -, hnext⟩
      · exact ihfirst hfirst
      · exact ihnext a hnext

theorem readText_composed : Composed readText := by
  refine .bind (.number _ _) fun n => .bind (.run n) fun bytes => ?_
  split
  · exact .value _
  · exact .refuse (by decide)

theorem readChoice_composed (known : List α) : Composed (readChoice known) := by
  refine .bind (.number _ _) fun i => ?_
  split
  · exact .value _
  · exact .refuse (by decide)

theorem readEntries_composed (insert : α → String → String → α) (count : Nat) (m : α) :
    Composed (readEntries insert count m) := by
  induction count generalizing m with
  | zero => exact .value m
  | succ count ih =>
      exact .bind readText_composed fun k => .bind readText_composed fun v => ih (insert m k v)

end Readers

end Binary

namespace BinaryForm

open Binary

section Forms

theorem readKind_composed : Composed readKind :=
  readChoice_composed _

theorem readAction_composed : Composed readAction :=
  readChoice_composed _

theorem readId_composed : Composed readId := by
  refine .bind readKind_composed fun kind => .bind readText_composed fun entity =>
    .bind readAction_composed fun action => ?_
  cases CommandId.make kind entity action with
  | ok id => exact .value id
  | error e => exact .refuse (by decide)

theorem readCommand_composed : Composed readCommand :=
  .bind readText_composed fun _ => .bind (.number _ _) fun count =>
    .bind (readEntries_composed _ count _) fun _ => .value _

theorem readPartition_composed : Composed readPartition :=
  .bind readText_composed fun _ => .bind (.number _ _) fun _ => .value _

theorem readPosition_composed : Composed readPosition :=
  .bind readText_composed fun _ => .bind (.number _ _) fun _ => .bind (.number _ _) fun _ =>
    .value _

end Forms

end BinaryForm

end ReplicatedLog
