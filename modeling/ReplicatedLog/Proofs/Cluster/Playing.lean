import ReplicatedLog.Proofs.Cluster.Remembering
import ReplicatedLog.Proofs.Cluster.Workload

/-!
# The workload played

The commands of the workload are made one after the other and executed on a new engine, whatever
sequence numbers they come with.

* `Workload.play` gives the verdicts and the engine, or the refusal of an id;
* `created_eq` and `dropped_eq` count the creates and the drops of the workload;
* `Engine.execute_congr`: sequence numbers matter neither to verdicts nor to entities, so that
  `play_engineAfter` carries over what is known of the workload as it is read back from a log;
* `play_goes_well`: every command is made and succeeds, and the entities are as many as expected.
-/

namespace ReplicatedLog

/-- What becomes of the entities does not depend on sequence numbers, nor does the verdict. -/
theorem Engine.execute_congr {e f : Engine} {q p : QueuedCommand} (he : e.entities = f.entities)
    (hid : q.id = p.id) (hc : q.command = p.command) :
    (e.execute q).1 = (f.execute p).1 ∧
      (e.execute q).2.entities = (f.execute p).2.entities := by
  obtain ⟨id, c, sequence⟩ := q
  obtain ⟨id', c', sequence'⟩ := p
  obtain rfl : id = id' := hid
  obtain rfl : c = c' := hc
  unfold execute
  dsimp only
  rw [he]
  split
  · exact ⟨rfl, rfl⟩
  · exact ⟨rfl, rfl⟩
  · exact ⟨rfl, rfl⟩
  · split <;> exact ⟨rfl, rfl⟩

namespace Workload

section Counting

/-- Of every seven commands the first five create a stream. -/
theorem created_eq (count : Nat) : created count = 5 * (count / 7) + min (count % 7) 5 := by
  induction count with
  | zero => rfl
  | succ count ih =>
      rw [created_succ, ih]
      split <;> omega

/-- Of every seven commands the last one drops a stream. -/
theorem dropped_eq (count : Nat) : dropped count = count / 7 := by
  induction count with
  | zero => rfl
  | succ count ih =>
      rw [dropped_succ, ih]
      split <;> omega

/-- No more is dropped than has been created. -/
theorem dropped_add_expectedEntities (count : Nat) :
    dropped count + expectedEntities count = created count := by
  have hcreated := created_eq count
  have hdropped := dropped_eq count
  rw [expectedEntities]
  omega

theorem expectedEntities_eq (count : Nat) :
    expectedEntities count = 4 * (count / 7) + min (count % 7) 5 := by
  rw [expectedEntities, created_eq, dropped_eq]
  omega

end Counting

section Playing

/-- The verdicts on the first commands of the workload, in order, and the engine that has executed
them; or why an id was refused.  Each command has the sequence number that is given for it. -/
def play (sequence : Nat → Option Nat) : Nat → Except IdError (List Verdict × Engine)
  | 0 => .ok ([], {})
  | count + 1 => do
      let (verdicts, e) ← play sequence count
      let (id, c) ← command count
      let (verdict, e) := e.execute ⟨id, c, sequence count⟩
      return (verdicts ++ [verdict], e)

variable (sequence : Nat → Option Nat)

/-- Every command is made and succeeds, and the entities are those of the workload as it is read
back from a log. -/
theorem play_engineAfter (count : Nat) :
    ∃ e, play sequence count = .ok (List.replicate count .succeeded, e) ∧
      e.entities = (engineAfter count).entities := by
  induction count with
  | zero => exact ⟨{}, rfl, rfl⟩
  | succ count ih =>
      obtain ⟨e, hplay, hentities⟩ := ih
      obtain ⟨hverdict, hnext⟩ := Engine.execute_congr (e := e) (f := engineAfter count)
        (q := ⟨(queued count).id, (queued count).command, sequence count⟩) (p := queued count)
        hentities rfl rfl
      refine ⟨_, ?_, hnext.trans (congrArg Engine.entities (engineAfter_succ count).symm)⟩
      rw [execute_succeeds] at hverdict
      rw [play, hplay, command_eq, List.replicate_succ', ← hverdict]
      rfl

/-- The sixth of every seven commands inserts into the stream that the fifth creates. -/
theorem parts_sixth (k : Nat) : parts (7 * k + 5) =
    (.stream, "insert_" ++ toString (7 * k + 5), .execute,
      "INSERT INTO s" ++ toString (7 * k + 4) ++ " (id) VALUES (" ++ toString (7 * k + 5) ++
        ");") := by
  have hrest : (7 * k + 5) % 7 = 5 := by omega
  have hback : 7 * k + 5 - 1 = 7 * k + 4 := by omega
  unfold parts
  rw [hrest, hback]
  rfl

/-- The seventh of every seven commands drops the stream that the fourth creates. -/
theorem parts_seventh (k : Nat) : parts (7 * k + 6) =
    (.stream, "s" ++ toString (7 * k + 3), .drop,
      "DROP STREAM s" ++ toString (7 * k + 3) ++ ";") := by
  have hrest : (7 * k + 6) % 7 = 6 := by omega
  have hback : 7 * k + 6 - 3 = 7 * k + 3 := by omega
  unfold parts
  rw [hrest, hback]
  rfl

theorem keyOf_stream (index : Nat) :
    Engine.keyOf .stream ("s" ++ toString index) = key index :=
  rfl

/-- Before the seventh command of every seven, the stream that it drops is live. -/
theorem play_lives (k : Nat) :
    ∃ verdicts e, play sequence (7 * k + 6) = .ok (verdicts, e) ∧
      e.entities.contains (Engine.keyOf .stream ("s" ++ toString (7 * k + 3))) = true := by
  obtain ⟨e, hplay, hentities⟩ := play_engineAfter sequence (7 * k + 6)
  refine ⟨_, e, hplay, ?_⟩
  rw [hentities, keyOf_stream, engineAfter_contains]
  unfold Lives
  omega

/-- However many commands of the workload are played, each of them is made and succeeds, and as many
entities are live as are expected: four for every seven commands, and one for each of the first five
of those left over.  Nothing is ever subtracted from something smaller, and every stream that is
dropped is live until then. -/
theorem play_goes_well (count : Nat) :
    (∃ e, play sequence count = .ok (List.replicate count .succeeded, e) ∧
      e.entities.size = expectedEntities count) ∧
      dropped count + expectedEntities count = created count ∧
      expectedEntities count = 4 * (count / 7) + min (count % 7) 5 ∧
      ∀ k, parts (7 * k + 5) =
          (.stream, "insert_" ++ toString (7 * k + 5), .execute,
            "INSERT INTO s" ++ toString (7 * k + 4) ++ " (id) VALUES (" ++
              toString (7 * k + 5) ++ ");") ∧
        parts (7 * k + 6) =
          (.stream, "s" ++ toString (7 * k + 3), .drop,
            "DROP STREAM s" ++ toString (7 * k + 3) ++ ";") ∧
        ∃ verdicts e, play sequence (7 * k + 6) = .ok (verdicts, e) ∧
          e.entities.contains (Engine.keyOf .stream ("s" ++ toString (7 * k + 3))) = true := by
  obtain ⟨e, hplay, hentities⟩ := play_engineAfter sequence count
  refine ⟨⟨e, hplay, ?_⟩, dropped_add_expectedEntities count, expectedEntities_eq count, fun k =>
    ⟨parts_sixth k, parts_seventh k, play_lives sequence k⟩⟩
  rw [hentities, size_engineAfter]

end Playing

end Workload
end ReplicatedLog
