import ReplicatedLog.Text.Decimal

/-!
# Partitions and positions

A topic is split into numbered partitions, and an entry has a place in one of
them: its offset, counted from zero.
-/

namespace ReplicatedLog

/-- One partition of a topic. -/
structure Partition where
  topic : String
  index : Nat
  deriving DecidableEq, Repr

namespace Partition

/-- How messages name a partition. -/
def text (p : Partition) : String :=
  p.topic ++ "-" ++ toString p.index

/-- Partitions are ordered by topic, then by index. -/
instance : Ord Partition where
  compare := compareLex (compareOn Partition.topic) (compareOn Partition.index)

instance : Std.TransOrd Partition :=
  inferInstanceAs
    (Std.TransCmp (compareLex (compareOn Partition.topic) (compareOn Partition.index)))

instance : Std.LawfulEqOrd Partition where
  compare_self {a} := by
    show compareLex (compareOn Partition.topic) (compareOn Partition.index) a a = .eq
    exact Std.ReflCmp.compare_self
  eq_of_compare {a b} h := by
    have h' : compareLex (compareOn Partition.topic) (compareOn Partition.index) a b = .eq := h
    rw [compareLex_eq_eq] at h'
    obtain ⟨ht, hi⟩ := h'
    cases a
    cases b
    simp only [compareOn, Std.LawfulEqOrd.compare_eq_iff_eq] at ht hi
    simp [ht, hi]

end Partition

/-- The place of an entry in the log. -/
structure Position where
  topic : String
  index : Nat
  offset : Nat
  deriving DecidableEq, Repr

/-- The partition in which a position lies. -/
def Position.partition (p : Position) : Partition :=
  ⟨p.topic, p.index⟩

end ReplicatedLog
