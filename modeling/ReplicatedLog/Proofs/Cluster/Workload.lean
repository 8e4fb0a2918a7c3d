import Mathlib.Data.List.Basic
import ReplicatedLog.Proofs.Cluster.Engine
import ReplicatedLog.Cluster.Workload

/-!
# What the workload brings about

* `Workload.script` is the beginning of the workload as it is read back from a log, and
  `Workload.engineAfter` the engine that has executed it;
* `Workload.Lives` says which streams are live after the first commands, and
  `engineAfter_contains`: they are just those that the engine has;
* `execute_succeeds`: no command of the workload fails, and `size_engineAfter`: after the
  first commands there are as many entities as are expected.
-/

namespace ReplicatedLog

namespace Workload

section Commands

/-- A text with a number behind it can be an entity. -/
theorem isEntity_number {text : String} (hne : text ≠ "") (h : '/' ∉ text.toList) (n : Nat) :
    IsEntity (text ++ toString n) := by
  refine ⟨fun hempty => hne (String.append_eq_empty_iff.1 hempty).1, fun hmem => ?_⟩
  rw [String.toList_append, List.mem_append] at hmem
  rcases hmem with hmem | hmem
  · exact h hmem
  · rw [Nat.toString_eq_ofList_toDigits, String.toList_ofList] at hmem
    have hdigit := Nat.isDigit_of_mem_toDigits (by decide) (by decide) hmem
    revert hdigit
    decide

theorem isEntity_parts (index : Nat) : IsEntity (parts index).2.1 := by
  unfold parts
  split
  · exact isEntity_number (by decide) (by decide) index
  · exact isEntity_number (by decide) (by decide) _
  · exact isEntity_number (by decide) (by decide) index

/-- The command with an index, as it is read back from a log that has it at that offset. -/
def queued (index : Nat) : QueuedCommand where
  id := ⟨(parts index).1, (parts index).2.1, (parts index).2.2.1, isEntity_parts index⟩
  command :=
    ({ statement := (parts index).2.2.2 } : Command).withProperty "auto.offset.reset" "earliest"
  sequence := some index

theorem command_eq (index : Nat) :
    command index = .ok ((queued index).id, (queued index).command) := by
  unfold command CommandId.make
  simp only [dif_pos (isEntity_parts index)]
  rfl

/-- The first commands of the workload, as they are read back from a log that holds them. -/
def script (count : Nat) : List QueuedCommand :=
  (List.range count).map queued

theorem length_script (count : Nat) : (script count).length = count := by
  simp [script]

theorem script_succ (count : Nat) : script (count + 1) = script count ++ [queued count] := by
  simp [script, List.range_succ]

theorem getElem?_script {count i : Nat} (h : i < count) : (script count)[i]? = some (queued i) := by
  simp [script, h]

theorem take_script {count i : Nat} (h : i ≤ count) : (script count).take i = script i := by
  rw [script, ← List.map_take, List.take_range, Nat.min_eq_left h]
  rfl

end Commands

section Effects

/-- The key of the stream that the command with an index creates. -/
def key (index : Nat) : String :=
  "stream/" ++ ("s" ++ toString index)

theorem key_injective {i j : Nat} (h : key i = key j) : i = j := by
  have hdigits := (String.append_right_inj "s").1 ((String.append_right_inj "stream/").1 h)
  rw [Nat.toString_eq_ofList_toDigits, Nat.toString_eq_ofList_toDigits] at hdigits
  rw [← Nat.ofDigitChars_ten_toDigits (n := i), String.ofList_injective hdigits,
    Nat.ofDigitChars_ten_toDigits]

/-- The stream that the command with an index creates is live after the first commands. -/
def Lives (count index : Nat) : Prop :=
  index < count ∧ index % 7 < 5 ∧ ¬ (index % 7 = 3 ∧ index + 3 < count)

theorem parts_insert {index : Nat} (h : index % 7 = 5) : ∃ statement,
    parts index = (.stream, "insert_" ++ toString index, .execute, statement) := by
  unfold parts
  rw [h]
  exact ⟨_, rfl⟩

theorem parts_drop {index : Nat} (h : index % 7 = 6) : ∃ statement,
    parts index = (.stream, "s" ++ toString (index - 3), .drop, statement) := by
  unfold parts
  rw [h]
  exact ⟨_, rfl⟩

theorem parts_create {index : Nat} (h : index % 7 < 5) : ∃ statement,
    parts index = (.stream, "s" ++ toString index, .create, statement) := by
  unfold parts
  split
  · omega
  · omega
  · exact ⟨_, rfl⟩

/-- A command that inserts into a stream leaves the entities. -/
theorem execute_insert (e : Engine) {index : Nat} (h : index % 7 = 5) :
    (e.execute (queued index)).1 = .succeeded ∧
      (e.execute (queued index)).2.entities = e.entities := by
  obtain ⟨statement, hparts⟩ := parts_insert h
  simp [Engine.execute, queued, hparts]

/-- A command that drops a stream succeeds if the stream is there. -/
theorem execute_drop (e : Engine) {index : Nat} (h : index % 7 = 6)
    (hc : e.entities.contains (key (index - 3)) = true) :
    (e.execute (queued index)).1 = .succeeded ∧
      (e.execute (queued index)).2.entities = e.entities.erase (key (index - 3)) := by
  obtain ⟨statement, hparts⟩ := parts_drop h
  have hkey : Engine.entityKey (queued index).id = key (index - 3) := by
    simp [Engine.entityKey, queued, hparts, key, Kind.name]
  have hkind : (queued index).id.kind = .stream := by simp [queued, hparts]
  have haction : (queued index).id.action = .drop := by simp [queued, hparts]
  unfold Engine.execute
  rw [hkind, haction, hkey]
  simp [hc]

/-- A command that creates a stream succeeds. -/
theorem execute_create (e : Engine) {index : Nat} (h : index % 7 < 5) :
    (e.execute (queued index)).1 = .succeeded ∧
      (e.execute (queued index)).2.entities =
        e.entities.insert (key index) (queued index).command.statement := by
  obtain ⟨statement, hparts⟩ := parts_create h
  have hkey : Engine.entityKey (queued index).id = key index := by
    simp [Engine.entityKey, queued, hparts, key, Kind.name]
  have hkind : (queued index).id.kind = .stream := by simp [queued, hparts]
  have haction : (queued index).id.action = .create := by simp [queued, hparts]
  unfold Engine.execute
  rw [hkind, haction, hkey]
  exact ⟨rfl, rfl⟩

end Effects

section Runs

/-- The engine after the first commands of the workload. -/
def engineAfter (count : Nat) : Engine :=
  Engine.run {} (script count)

theorem engineAfter_succ (count : Nat) :
    engineAfter (count + 1) = ((engineAfter count).execute (queued count)).2 := by
  rw [engineAfter, script_succ, Engine.run_append]
  rfl

/-- What the next command does to the streams: it leaves them, drops one that is there, or creates
one that is not. -/
theorem lives_succ (count i : Nat) :
    Lives (count + 1) i ↔
      if count % 7 = 5 then Lives count i
      else if count % 7 = 6 then Lives count i ∧ i ≠ count - 3
      else Lives count i ∨ i = count := by
  unfold Lives
  split
  · omega
  · split <;> omega

theorem contains_erase_key (m : SortedMap String String) (i j : Nat) :
    (m.erase (key j)).contains (key i) = true ↔ m.contains (key i) = true ∧ i ≠ j := by
  rw [SortedMap.contains, SortedMap.get?_erase]
  by_cases hij : i = j
  · simp [hij]
  · have hne : ¬ compare (key i) (key j) = .eq := fun heq =>
      hij (key_injective (Std.compare_eq_iff_eq.1 heq))
    simp [hij, hne, SortedMap.contains]

theorem contains_insert_key (m : SortedMap String String) (i j : Nat) (v : String) :
    (m.insert (key j) v).contains (key i) = true ↔ m.contains (key i) = true ∨ i = j := by
  by_cases hij : i = j
  · simp [hij, SortedMap.contains]
  · rw [SortedMap.contains, SortedMap.get?_insert_of_ne m v fun h => hij (key_injective h)]
    simp [hij, SortedMap.contains]

/-- The engine has just the streams that are live. -/
theorem engineAfter_contains (count : Nat) :
    ∀ i, (engineAfter count).entities.contains (key i) = true ↔ Lives count i := by
  induction count with
  | zero =>
      intro i
      have hnone : ¬ Lives 0 i := fun h => absurd h.1 (Nat.not_lt_zero i)
      simp [hnone, engineAfter, script, Engine.run, SortedMap.contains]
  | succ count ih =>
      intro i
      rw [lives_succ, engineAfter_succ]
      by_cases h5 : count % 7 = 5
      · rw [if_pos h5, (execute_insert _ h5).2]
        exact ih i
      · rw [if_neg h5]
        by_cases h6 : count % 7 = 6
        · have hthere : Lives count (count - 3) := by
            unfold Lives
            omega
          rw [if_pos h6, (execute_drop _ h6 ((ih _).2 hthere)).2, contains_erase_key, ih]
        · have hcreates : count % 7 < 5 := by omega
          rw [if_neg h6, (execute_create _ hcreates).2, contains_insert_key, ih]

/-- No command of the workload fails. -/
theorem execute_succeeds (count : Nat) :
    ((engineAfter count).execute (queued count)).1 = .succeeded := by
  by_cases h5 : count % 7 = 5
  · exact (execute_insert _ h5).1
  · by_cases h6 : count % 7 = 6
    · refine (execute_drop _ h6 ((engineAfter_contains count _).2 ?_)).1
      unfold Lives
      omega
    · exact (execute_create _ (by omega)).1

theorem created_succ (count : Nat) :
    created (count + 1) = created count + if count % 7 < 5 then 1 else 0 := by
  simp [created, List.range_succ, List.countP_append, List.countP_cons]

theorem dropped_succ (count : Nat) :
    dropped (count + 1) = dropped count + if count % 7 = 6 then 1 else 0 := by
  simp [dropped, List.range_succ, List.countP_append, List.countP_cons]

/-- After the first commands of the workload there are as many entities as are expected. -/
theorem size_engineAfter (count : Nat) :
    (engineAfter count).entities.size = expectedEntities count := by
  have hall : (engineAfter count).entities.size + dropped count = created count := by
    induction count with
    | zero => rfl
    | succ count ih =>
        rw [engineAfter_succ, created_succ, dropped_succ]
        by_cases h5 : count % 7 = 5
        · rw [(execute_insert _ h5).2, if_neg (by omega), if_neg (by omega)]
          exact ih
        · by_cases h6 : count % 7 = 6
          · have hthere : (engineAfter count).entities.contains (key (count - 3)) = true := by
              rw [engineAfter_contains]
              unfold Lives
              omega
            have hsize := SortedMap.size_erase hthere
            rw [(execute_drop _ h6 hthere).2, if_pos h6, if_neg (by omega)]
            omega
          · have hcreates : count % 7 < 5 := by omega
            have hnew : (engineAfter count).entities.contains (key count) = false := by
              rw [Bool.eq_false_iff, ne_eq, engineAfter_contains]
              exact fun h => Nat.lt_irrefl _ h.1
            rw [(execute_create _ hcreates).2, SortedMap.size_insert _ hnew, if_neg h6,
              if_pos hcreates]
            omega
  rw [expectedEntities, ← hall, Nat.add_sub_cancel]

end Runs

end Workload
end ReplicatedLog
