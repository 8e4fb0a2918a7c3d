import ReplicatedLog.Client.Shared
import ReplicatedLog.Proofs.Log.Decoding
import ReplicatedLog.Proofs.Log.Growth

/-!
# The commands that a partition holds

The entries of a partition, read from the first one on, tell a list of commands:
one for each entry that has a value, with the offset of the entry as sequence.

* `commandsFrom` is that list, for entries that follow one another from an offset
  on, without regard to how they are read;
* `Log.Tells` says that the entries below an offset are all there, can all be
  decoded, and tell a given list;
* `decodeEntries_ok`: what a reader decodes tells just these commands;
* `Log.Tells.grows`: what has been told stays told, whatever is added;
* `Log.Tells.extend`: reading on tells more.
-/

namespace ReplicatedLog

section Commands

/-- The command that an entry holds at an offset.  A tombstone holds none, nor does what cannot be
decoded. -/
def Entry.queued? (schema : CommandSchema) (offset : Nat) (e : Entry) : Option QueuedCommand :=
  match schema.key.decode e.key, e.value.map schema.value.decode with
  | .ok id, some (.ok command) => some ⟨id, command, some offset⟩
  | _, _ => none

/-- An entry whose key and value can be decoded. -/
def Entry.IsReadable (schema : CommandSchema) (e : Entry) : Prop :=
  (∃ id, schema.key.decode e.key = .ok id) ∧
    ∀ v, e.value = some v → ∃ command, schema.value.decode v = .ok command

/-- The commands of entries that follow one another from an offset on. -/
def commandsFrom (schema : CommandSchema) : (offset : Nat) → List Entry → List QueuedCommand
  | _, [] => []
  | offset, e :: es => (e.queued? schema offset).toList ++ commandsFrom schema (offset + 1) es

theorem commandsFrom_append (schema : CommandSchema) (es fs : List Entry) :
    ∀ offset, commandsFrom schema offset (es ++ fs) =
      commandsFrom schema offset es ++ commandsFrom schema (offset + es.length) fs := by
  induction es with
  | nil => simp [commandsFrom]
  | cons e es ih =>
      intro offset
      simp only [List.cons_append, commandsFrom, ih, List.append_assoc, List.length_cons]
      have hshift : offset + (es.length + 1) = offset + 1 + es.length := by omega
      rw [hshift]

theorem Entry.sequence_of_queued? {schema : CommandSchema} {offset : Nat} {e : Entry}
    {q : QueuedCommand} (h : e.queued? schema offset = some q) : q.sequence = some offset := by
  unfold Entry.queued? at h
  split at h
  · cases h
    rfl
  · cases h

/-- Every command has the offset of one of the entries as its sequence. -/
theorem sequence_of_mem_commandsFrom {schema : CommandSchema} {q : QueuedCommand} :
    ∀ {offset : Nat} {es : List Entry}, q ∈ commandsFrom schema offset es →
      ∃ i < es.length, q.sequence = some (offset + i)
  | _, [], h => by simp [commandsFrom] at h
  | offset, e :: es, h => by
      rw [commandsFrom, List.mem_append] at h
      rcases h with h | h
      · rw [Option.mem_toList] at h
        exact ⟨0, by simp, Entry.sequence_of_queued? h⟩
      · obtain ⟨i, hi, hs⟩ := sequence_of_mem_commandsFrom h
        refine ⟨i + 1, by simpa using hi, ?_⟩
        rw [hs, show offset + 1 + i = offset + (i + 1) by omega]

/-- One command comes before another in the log. -/
def QueuedCommand.Precedes (a b : QueuedCommand) : Prop :=
  ∃ i j, a.sequence = some i ∧ b.sequence = some j ∧ i < j

/-- The commands are in the order of their offsets, each offset once. -/
theorem pairwise_commandsFrom (schema : CommandSchema) :
    ∀ (offset : Nat) (es : List Entry),
      (commandsFrom schema offset es).Pairwise QueuedCommand.Precedes
  | _, [] => by simp [commandsFrom]
  | offset, e :: es => by
      rw [commandsFrom, List.pairwise_append]
      refine ⟨?_, pairwise_commandsFrom schema (offset + 1) es, ?_⟩
      · cases e.queued? schema offset <;> simp
      · intro a ha b hb
        rw [Option.mem_toList] at ha
        obtain ⟨i, -, hi⟩ := sequence_of_mem_commandsFrom hb
        exact ⟨offset, offset + 1 + i, Entry.sequence_of_queued? ha, hi, by omega⟩

end Commands

section Decoding

variable {schema : CommandSchema} {p : Partition}

theorem decodeEntry_ok {offset : Nat} {e : Entry} {r : CommandRecord}
    (h : Reader.decodeEntry schema p offset e = .ok r) :
    e.IsReadable schema ∧ CommandRecord.queued r = e.queued? schema offset := by
  obtain ⟨-, hoffset, hk, ⟨hv, hnone⟩ | ⟨v, command, hv, hd, hsome⟩⟩ := Reader.decodeEntry_of_ok h
  · refine ⟨⟨⟨r.key, hk⟩, fun w hw => ?_⟩, ?_⟩
    · rw [hv] at hw
      cases hw
    · simp [CommandRecord.queued, Entry.queued?, hk, hv, hnone]
  · refine ⟨⟨⟨r.key, hk⟩, fun w hw => ?_⟩, ?_⟩
    · rw [hv] at hw
      cases hw
      exact ⟨command, hd⟩
    · simp [CommandRecord.queued, Entry.queued?, hk, hv, hd, hsome, hoffset]

/-- What decodes tells the commands of the entries, one record for each entry. -/
theorem decodeEntries_ok :
    ∀ {offset : Nat} {es : List Entry} {rs : List CommandRecord},
      Reader.decodeEntries schema p offset es = .ok rs →
        (∀ e ∈ es, e.IsReadable schema) ∧ rs.length = es.length ∧
          CommandBatch.commands ⟨rs⟩ = commandsFrom schema offset es
  | _, [], rs, h => by
      cases h
      exact ⟨by simp, rfl, rfl⟩
  | offset, e :: es, rs, h => by
      obtain ⟨r, rest, rfl, hr, hrs⟩ := Reader.decodeEntries_cons_of_ok h
      obtain ⟨hread, hq⟩ := decodeEntry_ok hr
      obtain ⟨hreads, hlen, hqs⟩ := decodeEntries_ok hrs
      refine ⟨?_, by simp [hlen], ?_⟩
      · intro f hf
        rcases List.mem_cons.1 hf with rfl | hf
        · exact hread
        · exact hreads f hf
      · rw [commandsFrom, ← hq, ← hqs]
        unfold CommandBatch.commands
        cases hx : CommandRecord.queued r <;> simp [hx]

end Decoding

namespace Log

/-- The entries of a partition below an offset are there, can be decoded, and hold the commands. -/
structure Tells (log : Log) (schema : CommandSchema) (p : Partition) (n : Nat)
    (commands : List QueuedCommand) : Prop where
  bound : n ≤ (log.written p).length
  readable : ∀ e ∈ (log.written p).take n, e.IsReadable schema
  eq : commands = commandsFrom schema 0 ((log.written p).take n)

namespace Tells

variable {log : Log} {schema : CommandSchema} {p : Partition} {n : Nat}
  {commands : List QueuedCommand}

/-- Nothing is told by no entries. -/
theorem zero (log : Log) (schema : CommandSchema) (p : Partition) :
    log.Tells schema p 0 [] :=
  ⟨Nat.zero_le _, by simp, by simp [commandsFrom]⟩

/-- What has been told stays told. -/
theorem grows {after : Log} (h : log.Tells schema p n commands) (hg : log.Grows after) :
    after.Tells schema p n commands := by
  obtain ⟨more, hmore⟩ := hg.entries p
  have htake : (after.written p).take n = (log.written p).take n := by
    rw [← hmore, List.take_append_of_le_length h.bound]
  refine ⟨Nat.le_trans h.bound (hg.entries p).length_le, ?_, ?_⟩
  · rw [htake]
    exact h.readable
  · rw [htake]
    exact h.eq

/-- Reading on tells the commands of the entries that have been read. -/
theorem extend (h : log.Tells schema p n commands) {room : Nat} {rs : List CommandRecord}
    (hd : Reader.decodeEntries schema p n (((log.written p).drop n).take room) = .ok rs) :
    log.Tells schema p (n + rs.length) (commands ++ CommandBatch.commands ⟨rs⟩) := by
  obtain ⟨hreads, hlen, hcommands⟩ := decodeEntries_ok hd
  have htake : (log.written p).take (n + rs.length) =
      (log.written p).take n ++ ((log.written p).drop n).take room := by
    rw [List.take_add, hlen]
    congr 1
    rw [List.length_take]
    by_cases hr : room ≤ ((log.written p).drop n).length
    · rw [Nat.min_eq_left hr]
    · rw [Nat.min_eq_right (by omega), List.take_of_length_le (by omega),
        List.take_of_length_le (by omega)]
  refine ⟨?_, ?_, ?_⟩
  · rw [hlen, List.length_take, List.length_drop]
    have := h.bound
    omega
  · rw [htake]
    intro e he
    rcases List.mem_append.1 he with he | he
    · exact h.readable e he
    · exact hreads e he
  · rw [htake, commandsFrom_append, hcommands, ← h.eq, List.length_take,
      Nat.min_eq_left h.bound, Nat.zero_add]

/-- The beginning of a told list is told by the beginning of the entries. -/
theorem of_append {first later : List QueuedCommand}
    (h : log.Tells schema p n (first ++ later)) :
    ∃ m ≤ n, log.Tells schema p m first := by
  induction n generalizing later with
  | zero =>
      have := h.eq
      simp only [List.take_zero, commandsFrom, List.append_eq_nil_iff] at this
      rw [this.1]
      exact ⟨0, Nat.le_refl 0, zero log schema p⟩
  | succ n ih =>
      have hlt : n < (log.written p).length := h.bound
      have htake : (log.written p).take (n + 1) = (log.written p).take n ++ [(log.written p)[n]] :=
        List.take_succ_eq_append_getElem hlt
      have heq := h.eq
      have hread : ∀ e ∈ (log.written p).take n, e.IsReadable schema := fun e he =>
        h.readable e (htake ▸ List.mem_append_left _ he)
      rw [htake, commandsFrom_append] at heq
      -- the last entry holds at most one command, and that is the last one of the list
      rcases List.eq_nil_or_concat later with rfl | ⟨before, last, rfl⟩
      · exact ⟨n + 1, Nat.le_refl _, by simpa using h⟩
      · cases hq : (log.written p)[n].queued? schema (0 + ((log.written p).take n).length) with
        | none =>
            simp only [commandsFrom, hq, Option.toList_none, List.append_nil] at heq
            obtain ⟨m, hm, ht⟩ := ih ⟨Nat.le_of_lt hlt, hread, heq⟩
            exact ⟨m, Nat.le_succ_of_le hm, ht⟩
        | some q =>
            simp only [commandsFrom, hq, Option.toList_some, List.append_nil,
              List.concat_eq_append, ← List.append_assoc] at heq
            have hsplit := List.append_inj' heq rfl
            obtain ⟨m, hm, ht⟩ := ih ⟨Nat.le_of_lt hlt, hread, hsplit.1⟩
            exact ⟨m, Nat.le_succ_of_le hm, ht⟩

/-- What is told is the beginning of the commands of the whole partition. -/
theorem isPrefix (h : log.Tells schema p n commands) :
    commands <+: commandsFrom schema 0 (log.written p) := by
  rw [h.eq]
  conv => rhs; rw [← List.take_append_drop n (log.written p), commandsFrom_append]
  exact List.prefix_append _ _

/-- What is told is in the order of the offsets. -/
theorem pairwise (h : log.Tells schema p n commands) :
    commands.Pairwise QueuedCommand.Precedes := by
  rw [h.eq]
  exact pairwise_commandsFrom schema 0 _

end Tells
end Log
end ReplicatedLog
