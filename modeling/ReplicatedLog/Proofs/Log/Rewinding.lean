import Mathlib.Data.List.TakeWhile
import ReplicatedLog.Log.Reader
import ReplicatedLog.Proofs.Data.Updating

/-!
# Going back

A seek takes the partitions it is given back to their first entry, one after the
other, and gives up at the first that is not assigned.  Those ahead of that one have
gone back by then, and stay so.

* `Reader.reached` and `Reader.refusal`: the partitions a seek comes to, and why it
  gives up;
* `rewind_ends` and `rewind_get?_eq`: the same of the loop, by induction on the
  partitions;
* `Reader.AllOrNothing`: a seek takes all of its partitions back or leaves everything
  as it is;
* `seekToBeginning_exact`: what a seek does, and when it is all or nothing.
-/

namespace ReplicatedLog
namespace Reader

variable {r : Reader} {ps : List Partition} {p : Partition}

section Loop

/-- The loop ends at the first partition that is not there. -/
theorem rewind_ends (ps : List Partition) (m : SortedMap Partition Nat) :
    (rewind ps m).1 =
      match ps.find? fun p => !m.contains p with
      | none => .ok ()
      | some p => .error (.notAssigned p) := by
  -- what the loop sets was there before, so that what is there stays the same throughout
  induction ps generalizing m with
  | nil => rfl
  | cons p ps ih =>
      rw [rewind]
      cases hp : m.contains p with
      | false => rw [if_neg Bool.false_ne_true, List.find?_cons_of_pos (by simp [hp])]
      | true =>
          have hnext := ih (m.insert p 0)
          rw [SortedMap.contains_insert_of_contains 0 hp] at hnext
          rw [if_pos rfl, hnext, List.find?_cons_of_neg (by simp [hp])]

/-- The partitions ahead of that one are zero afterwards, and no other has changed. -/
theorem rewind_get?_eq (ps : List Partition) (m : SortedMap Partition Nat) (q : Partition) :
    (rewind ps m).2.get? q = if q ∈ ps.takeWhile m.contains then some 0 else m.get? q := by
  induction ps generalizing m with
  | nil => rfl
  | cons p ps ih =>
      rw [rewind]
      cases hp : m.contains p with
      | false =>
          rw [if_neg Bool.false_ne_true, List.takeWhile_cons_of_neg (by simp [hp])]
          rfl
      | true =>
          have hnext := ih (m.insert p 0)
          rw [SortedMap.contains_insert_of_contains 0 hp] at hnext
          rw [if_pos rfl, hnext, List.takeWhile_cons_of_pos hp]
          by_cases hrest : q ∈ ps.takeWhile m.contains
          · rw [if_pos hrest, if_pos (List.mem_cons_of_mem _ hrest)]
          · by_cases hq : q = p
            · subst hq
              rw [if_neg hrest, if_pos List.mem_cons_self, SortedMap.get?_insert_self]
            · rw [if_neg hrest, if_neg (by simp [hq, hrest]), SortedMap.get?_insert_of_ne _ _ hq]

end Loop

section Seeking

/-- The partitions that a seek comes to: those ahead of the first one that is not assigned. -/
def reached (r : Reader) (ps : List Partition) : List Partition :=
  if r.isClosed then [] else ps.takeWhile r.positions.contains

/-- Why a seek gives up: the reader is closed, or a partition is not assigned. -/
def refusal (r : Reader) (ps : List Partition) : Option LogError :=
  if r.isClosed then some .closed
  else (ps.find? fun p => !r.positions.contains p).map .notAssigned

/-- Either a seek goes through and exactly its partitions are at zero, or it fails on a closed
reader or at one of its partitions, and no position has changed. -/
def AllOrNothing (r : Reader) (ps : List Partition) : Prop :=
  ((r.seekToBeginning ps).1 = .ok () ∧
      ∀ p, (r.seekToBeginning ps).2.position p = if p ∈ ps then some 0 else r.position p) ∨
    ∃ err, (r.seekToBeginning ps).1 = .error err ∧
      (err = .closed ∨ ∃ p ∈ ps, err = .notAssigned p) ∧
      ∀ p, (r.seekToBeginning ps).2.position p = r.position p

theorem seekToBeginning_ends (r : Reader) (ps : List Partition) :
    (r.seekToBeginning ps).1 =
      match r.refusal ps with
      | none => .ok ()
      | some err => .error err := by
  rw [seekToBeginning, refusal]
  cases r.isClosed with
  | true => rfl
  | false =>
      change (rewind ps r.positions).1 = _
      rw [rewind_ends]
      cases ps.find? fun p => !r.positions.contains p <;> rfl

theorem seekToBeginning_position (r : Reader) (ps : List Partition) (p : Partition) :
    (r.seekToBeginning ps).2.position p = if p ∈ r.reached ps then some 0 else r.position p := by
  rw [seekToBeginning, reached]
  cases r.isClosed with
  | true => rfl
  | false => exact rewind_get?_eq ps r.positions p

/-- A seek that does not give up comes to all of its partitions. -/
theorem reached_of_refusal_eq_none (h : r.refusal ps = none) : r.reached ps = ps := by
  unfold refusal at h
  unfold reached
  cases hclosed : r.isClosed with
  | true => simp [hclosed] at h
  | false =>
      rw [hclosed, if_neg Bool.false_ne_true, Option.map_eq_none_iff, List.find?_eq_none] at h
      rw [if_neg Bool.false_ne_true, List.takeWhile_eq_self_iff]
      exact fun p hp => by simpa using h p hp

/-- A seek gives up on a closed reader, or at one of its partitions that is not assigned. -/
theorem refusal_cases {err : LogError} (h : r.refusal ps = some err) :
    (r.isClosed = true ∧ err = .closed) ∨
      ∃ p ∈ ps, r.position p = none ∧ err = .notAssigned p := by
  unfold refusal at h
  cases hclosed : r.isClosed with
  | true =>
      rw [hclosed, if_pos rfl, Option.some.injEq] at h
      exact Or.inl ⟨rfl, h.symm⟩
  | false =>
      rw [hclosed, if_neg Bool.false_ne_true] at h
      obtain ⟨p, hp, rfl⟩ := Option.map_eq_some_iff.1 h
      refine Or.inr ⟨p, List.mem_of_find?_eq_some hp, ?_, rfl⟩
      simpa [SortedMap.contains, position] using List.find?_some hp

theorem allOrNothing_iff (r : Reader) (ps : List Partition) :
    r.AllOrNothing ps ↔ r.refusal ps = none ∨ ∀ p ∈ r.reached ps, r.position p = some 0 := by
  have hends := seekToBeginning_ends r ps
  have hposition := seekToBeginning_position r ps
  constructor
  · rintro (⟨hok, -⟩ | ⟨err, -, -, hsame⟩)
    · left
      cases hrefusal : r.refusal ps with
      | none => rfl
      | some err =>
          rw [hrefusal, hok] at hends
          cases hends
    · right
      intro p hp
      rw [← hsame p, hposition p, if_pos hp]
  · intro h
    cases hrefusal : r.refusal ps with
    | none =>
        rw [hrefusal] at hends
        rw [reached_of_refusal_eq_none hrefusal] at hposition
        exact Or.inl ⟨hends, hposition⟩
    | some err =>
        rw [hrefusal] at hends h
        have hzero := h.resolve_left (Option.some_ne_none err)
        refine Or.inr ⟨err, hends, ?_, fun p => ?_⟩
        · rcases refusal_cases hrefusal with ⟨-, rfl⟩ | ⟨p, hp, -, rfl⟩
          · exact Or.inl rfl
          · exact Or.inr ⟨p, hp, rfl⟩
        · rw [hposition p]
          split
          next hp => exact (hzero p hp).symm
          next => rfl

/-- A seek goes through if the reader is open and has all of the partitions assigned; else it fails
on the closed reader or at the first partition that is not assigned.  Those ahead of it are at zero
then and no other position has changed, nor anything else of the reader.  So a seek is all or
nothing only if it goes through or the partitions it comes to were at zero already. -/
theorem seekToBeginning_exact (r : Reader) (ps : List Partition) :
    (r.seekToBeginning ps).1 =
        (match r.refusal ps with
        | none => .ok ()
        | some err => .error err) ∧
      (∀ p, (r.seekToBeginning ps).2.position p =
        if p ∈ r.reached ps then some 0 else r.position p) ∧
      { (r.seekToBeginning ps).2 with positions := r.positions } = r ∧
      (r.AllOrNothing ps ↔
        r.refusal ps = none ∨ ∀ p ∈ r.reached ps, r.position p = some 0) := by
  refine ⟨seekToBeginning_ends r ps, seekToBeginning_position r ps, ?_, allOrNothing_iff r ps⟩
  rw [seekToBeginning]
  split <;> rfl

/-- A seek that names an assigned partition ahead of one that is not assigned fails and has taken
the former back all the same. -/
theorem seekToBeginning_half_done :
    let r : Reader := { positions := SortedMap.ofList [(⟨"a", 0⟩, 2)] }
    (r.seekToBeginning [⟨"a", 0⟩, ⟨"b", 0⟩]).1 = .error (.notAssigned ⟨"b", 0⟩) ∧
      (r.seekToBeginning [⟨"a", 0⟩, ⟨"b", 0⟩]).2.position ⟨"a", 0⟩ = some 0 ∧
      r.position ⟨"a", 0⟩ = some 2 ∧
      ¬ r.AllOrNothing [⟨"a", 0⟩, ⟨"b", 0⟩] := by
  intro r
  have hgone : (r.seekToBeginning [⟨"a", 0⟩, ⟨"b", 0⟩]).1 = .error (.notAssigned ⟨"b", 0⟩) := by
    rfl
  have hmoved : (r.seekToBeginning [⟨"a", 0⟩, ⟨"b", 0⟩]).2.position ⟨"a", 0⟩ = some 0 := by
    decide +kernel
  have hstood : r.position ⟨"a", 0⟩ = some 2 := by decide +kernel
  refine ⟨hgone, hmoved, hstood, ?_⟩
  rintro (⟨hok, -⟩ | ⟨-, -, -, hsame⟩)
  · rw [hgone] at hok
    cases hok
  · have hkept := hsame ⟨"a", 0⟩
    rw [hmoved, hstood] at hkept
    cases hkept

end Seeking

end Reader
end ReplicatedLog
