/-!
# Durations

Lengths of time in whole nanoseconds, kept as seconds and the part of a second.
-/

namespace ReplicatedLog

/-- A length of time. -/
structure Duration where
  seconds : Nat
  nanos : Nat
  nanos_lt : nanos < 1000000000
  deriving DecidableEq, Repr

namespace Duration

/-- The length of a number of seconds and a number of nanoseconds. -/
def ofParts (seconds nanos : Nat) : Duration :=
  ⟨seconds + nanos / 1000000000, nanos % 1000000000, Nat.mod_lt _ (by decide)⟩

/-- The length of a number of milliseconds. -/
def ofMillis (n : Nat) : Duration :=
  ⟨n / 1000, n % 1000 * 1000000, by
    have := Nat.mod_lt n (show 0 < 1000 by decide)
    omega⟩

/-- The whole milliseconds of a length of time. -/
def toMillis (d : Duration) : Nat :=
  d.seconds * 1000 + d.nanos / 1000000

/-- The ticks of a clock of milliseconds after which the time has passed. -/
def ticks (d : Duration) : Nat :=
  d.seconds * 1000 + (d.nanos + 999999) / 1000000

/-- A number of milliseconds is made up of that many. -/
theorem toMillis_ofMillis (n : Nat) : (ofMillis n).toMillis = n := by
  simp only [toMillis, ofMillis]
  omega

/-- A number of milliseconds has passed after that many ticks. -/
theorem ticks_ofMillis (n : Nat) : (ofMillis n).ticks = n := by
  simp only [ticks, ofMillis]
  omega

end Duration
end ReplicatedLog
