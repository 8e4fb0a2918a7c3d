/-!
# Operations that wait

An operation that may have to wait is a value of its own: one step of it either
brings the result or leaves an operation that still waits.  Between two steps
anything else may happen.
-/

namespace ReplicatedLog

/-- What one step of an operation leaves. -/
inductive Progress (σ ρ : Type)
  /-- The operation goes on. -/
  | waiting (s : σ)
  /-- The operation is over. -/
  | done (r : ρ)

namespace Progress

variable {σ τ ρ υ : Type}

/-- Rewraps what is left of the operation and its result. -/
def map (f : σ → τ) (g : ρ → υ) : Progress σ ρ → Progress τ υ
  | waiting s => waiting (f s)
  | done r => done (g r)

end Progress

end ReplicatedLog
