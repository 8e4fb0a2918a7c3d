import ReplicatedLog.Proofs.Log.History
import ReplicatedLog.Simulation.Workbench

/-!
# The state that a log brings about

An engine that has executed the commands of the first entries of a partition, in
their order, is determined by the offset it has come to.

* `Engine.after` is the state after the commands of some entries, and `Engine.through`
  after those up to an offset;
* `Log.Tells.through`: an engine that has executed what the entries tell is in that
  state for the offset it has come to;
* `Workbench.IsPlain`: a workbench that neither rejects anything nor breaks down, and
  `executes`: it does with a command what its engine does.
-/

namespace ReplicatedLog

namespace Engine

section Offsets

theorem run_append (e : Engine) (qs later : List QueuedCommand) :
    e.run (qs ++ later) = (e.run qs).run later :=
  List.foldl_append

/-- An engine comes to the offset of a command that has one, whether it fails or not. -/
theorem appliedThrough_execute (e : Engine) (q : QueuedCommand) :
    (e.execute q).2.appliedThrough = q.sequence.or e.appliedThrough := by
  unfold execute
  dsimp only
  split
  · rfl
  · rfl
  · rfl
  · split <;> rfl

/-- An engine has come to the offset of the last command that it has executed. -/
theorem appliedThrough_run_concat (e : Engine) (qs : List QueuedCommand) {q : QueuedCommand}
    {offset : Nat} (h : q.sequence = some offset) :
    (e.run (qs ++ [q])).appliedThrough = some offset := by
  rw [run_append]
  change ((e.run qs).execute q).2.appliedThrough = _
  rw [appliedThrough_execute, h]
  rfl

end Offsets

section Through

/-- The state after the commands of entries that begin a partition. -/
def after (schema : CommandSchema) (es : List Entry) : Engine :=
  run {} (commandsFrom schema 0 es)

/-- The state after the commands of all entries up to an offset; the empty one if there is none. -/
def through (schema : CommandSchema) (es : List Entry) : Option Nat → Engine
  | none => {}
  | some offset => after schema (es.take (offset + 1))

end Through

end Engine

section Commands

/-- No command is told by the entries behind the one that holds the last command. -/
theorem commandsFrom_take_of_concat {schema : CommandSchema} {es : List Entry}
    {qs : List QueuedCommand} {q : QueuedCommand} {n offset : Nat}
    (h : commandsFrom schema 0 (es.take n) = qs ++ [q]) (hq : q.sequence = some offset) :
    commandsFrom schema 0 (es.take (offset + 1)) = commandsFrom schema 0 (es.take n) := by
  have hmem : q ∈ commandsFrom schema 0 (es.take n) := by
    rw [h]
    simp
  obtain ⟨i, hi, hsequence⟩ := sequence_of_mem_commandsFrom hmem
  have hoffset : offset = i := by
    rw [hq, Nat.zero_add] at hsequence
    exact Option.some.inj hsequence
  subst hoffset
  rw [List.length_take] at hi
  have htake : es.take n = es.take (offset + 1) ++ (es.take n).drop (offset + 1) := by
    conv => lhs; rw [← List.take_append_drop (offset + 1) (es.take n), List.take_take]
    rw [Nat.min_eq_left (by omega)]
  -- the last command is not behind its own entry, so that nothing is
  have hbehind : commandsFrom schema (0 + (es.take (offset + 1)).length)
      ((es.take n).drop (offset + 1)) = [] := by
    rcases List.eq_nil_or_concat (commandsFrom schema (0 + (es.take (offset + 1)).length)
      ((es.take n).drop (offset + 1))) with hnil | ⟨before, last, hlast⟩
    · exact hnil
    · rw [htake, commandsFrom_append, hlast, List.concat_eq_append, ← List.append_assoc] at h
      have hsame : last = q := List.singleton_inj.1 (List.append_inj' h rfl).2
      have hin : last ∈ commandsFrom schema (0 + (es.take (offset + 1)).length)
          ((es.take n).drop (offset + 1)) := by
        rw [hlast]
        simp
      obtain ⟨j, -, hj⟩ := sequence_of_mem_commandsFrom hin
      rw [hsame, hq, List.length_take] at hj
      have := Option.some.inj hj
      omega
  rw [htake, commandsFrom_append, hbehind, List.append_nil]

/-- The state that told commands bring about is determined by the offset it has come to. -/
theorem Log.Tells.through {log : Log} {schema : CommandSchema} {p : Partition} {n : Nat}
    {commands : List QueuedCommand} (h : log.Tells schema p n commands) :
    Engine.run {} commands =
      Engine.through schema (log.written p) (Engine.run {} commands).appliedThrough := by
  have heq := h.eq
  rcases List.eq_nil_or_concat commands with rfl | ⟨qs, q, rfl⟩
  · rfl
  · rw [List.concat_eq_append] at heq ⊢
    have hmem : q ∈ commandsFrom schema 0 ((log.written p).take n) := by
      rw [← heq]
      simp
    obtain ⟨i, -, hsequence⟩ := sequence_of_mem_commandsFrom hmem
    rw [Engine.appliedThrough_run_concat {} qs hsequence, Engine.through, Engine.after,
      commandsFrom_take_of_concat heq.symm hsequence, ← heq]

end Commands

namespace Workbench

section Plain

/-- A workbench that neither rejects anything nor breaks down. -/
structure IsPlain (b : Workbench) : Prop where
  rejects : b.rejects = []
  breaksOn : b.breaksOn = none

/-- On a plain workbench the engine executes what is handed over. -/
theorem IsPlain.executes {b : Workbench} (h : b.IsPlain) (q : QueuedCommand) :
    (b.execute q).2.IsPlain ∧ (b.execute q).2.engine = (b.engine.execute q).2 := by
  unfold execute
  dsimp only
  rw [if_neg (by simp [h.breaksOn]), if_neg (by simp [h.rejects])]
  rcases b.engine.execute q with ⟨verdict, engine⟩
  cases verdict with
  | succeeded => exact ⟨⟨h.rejects, h.breaksOn⟩, rfl⟩
  | failed reason => exact ⟨⟨h.rejects, h.breaksOn⟩, rfl⟩
  | brokeDown => exact ⟨⟨h.rejects, h.breaksOn⟩, rfl⟩

end Plain

end Workbench
end ReplicatedLog
