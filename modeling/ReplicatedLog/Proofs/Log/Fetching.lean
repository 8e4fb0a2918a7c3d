import ReplicatedLog.Proofs.Log.History
import ReplicatedLog.Proofs.Log.Polls

/-!
# A reader of one partition

The reader of a channel has one partition assigned to it.  What it does depends on
the log and on the offset it will read next, and on nothing else.

* `Reader.At` says that a reader has one partition and which offset is next;
* `Reader.Takes` says what a poll takes from there: as many of the entries that
  follow as the settings of the log allow, decoded;
* `stepPoll_at`: a poll takes just that and moves behind it, or brings no records
  and stays;
* `Log.Tells.takes` and `Log.Tells.takes_nothing`: what has been told and what is
  taken from there tell the entries up to the next offset, and an empty batch
  tells that the end is reached.
-/

namespace ReplicatedLog
namespace Reader

section Positions

/-- The reader has one partition, and this is the offset it will read next. -/
def At (r : Reader) (p : Partition) (n : Nat) : Prop :=
  r.positions.entries = [(p, n)]

variable {r : Reader} {p : Partition} {n : Nat}

theorem At.position (h : r.At p n) : r.position p = some n := by
  rw [Reader.position, SortedMap.get?, show r.positions.entries = _ from h]
  simp [SortedMap.findEntry]

/-- A reader with the same positions. -/
theorem At.of_positions {r' : Reader} (h : r.At p n) (hp : r'.positions = r.positions) :
    r'.At p n := by
  unfold At
  rw [hp]
  exact h

/-- Moving the reader on its only partition. -/
theorem At.entries_insert (h : r.At p n) (m : Nat) :
    (r.positions.insert p m).entries = [(p, m)] := by
  change SortedMap.insertEntry p m r.positions.entries = _
  have hentries : r.positions.entries = _ := h
  rw [hentries]
  simp [SortedMap.insertEntry]

theorem close_positions (r : Reader) : r.close.positions = r.positions := by
  unfold close
  split <;> rfl

theorem endOffsets_positions (log : Log) (r : Reader) (ps : List Partition) :
    (r.endOffsets log ps).2.positions = r.positions := by
  unfold endOffsets
  split
  next hu => exact ensureUsable_positions hu
  next hu => exact ensureUsable_positions hu

/-- Going back to the first entry of the only partition. -/
theorem seekToBeginning_at (h : r.At p n) :
    ((r.seekToBeginning [p]).1 = .ok () ∧ (r.seekToBeginning [p]).2.At p 0) ∨
      ((r.seekToBeginning [p]).1 = .error .closed ∧ (r.seekToBeginning [p]).2 = r) := by
  unfold seekToBeginning
  by_cases hc : r.isClosed
  · exact Or.inr (by simp [hc])
  · have hcontains : r.positions.contains p = true := by
      have := h.position
      rw [Reader.position] at this
      simp [SortedMap.contains, this]
    refine Or.inl ⟨by simp [hc, rewind, hcontains], ?_⟩
    simp only [hc, rewind, hcontains, if_true]
    exact h.entries_insert 0

end Positions

section Fetching

variable {schema : CommandSchema} {log : Log} {r : Reader} {p : Partition} {n : Nat}

/-- What a poll takes from an offset on. -/
def Takes (schema : CommandSchema) (log : Log) (p : Partition) (n : Nat) (b : CommandBatch) :
    Prop :=
  decodeEntries schema p n (((log.written p).drop n).take log.settings.maxPollRecords) =
    .ok b.records

/-- The scan of one partition finds what can be decoded past the offset. -/
theorem scan_one (schema : CommandSchema) (log : Log) (p : Partition) (n room : Nat) :
    (∃ rs, decodeEntries schema p n (((log.written p).drop n).take room) = .ok rs ∧
        scan schema log room [(p, n)] =
          .ok ⟨rs, if rs.isEmpty then [] else [(p, n + rs.length)]⟩) ∨
      ∃ e, scan schema log room [(p, n)] = .error e := by
  by_cases hroom : room = 0
  · -- without room there is nothing to read
    exact Or.inl ⟨[], by simp [hroom, decodeEntries], by simp [hroom, scan_zero]⟩
  · cases hread : log.read p n room with
    | none =>
        rw [scan_of_none hroom hread]
        by_cases hcount : log.partitionCount p.topic = none
        · refine Or.inl ⟨[], by simp [Log.read_eq_none hread, decodeEntries], ?_⟩
          rw [if_pos hcount]
          rfl
        · rw [if_neg hcount]
          exact Or.inr ⟨_, rfl⟩
    | some es =>
        rw [← Log.read_eq_some hread]
        cases hd : decodeEntries schema p n es with
        | error e => exact Or.inr ⟨e, scan_of_garbled hroom hread hd⟩
        | ok rs =>
            have hlen := (decodeEntries_ok hd).2.1
            have hempty : es.isEmpty = rs.isEmpty := by
              rw [Bool.eq_iff_iff, List.isEmpty_iff_length_eq_zero,
                List.isEmpty_iff_length_eq_zero, hlen]
            refine Or.inl ⟨rs, rfl, ?_⟩
            rw [scan_of_some hroom hread hd, hempty, ← hlen]
            simp [scan, Except.map]

/-- A fetch takes what follows and moves behind it, or leaves the reader as it is. -/
theorem fetch_at (schema : CommandSchema) (log : Log) (h : r.At p n) :
    (∃ b, (r.fetch schema log).1 = .ok b ∧ Takes schema log p n b ∧
        (r.fetch schema log).2.At p (n + b.size)) ∨
      ((∃ e, (r.fetch schema log).1 = .error e) ∧ (r.fetch schema log).2 = r) := by
  unfold fetch
  have hentries : r.positions.entries = _ := h
  rw [hentries]
  rcases scan_one schema log p n log.settings.maxPollRecords with ⟨rs, hd, hscan⟩ | ⟨e, hscan⟩
  · rw [hscan]
    refine Or.inl ⟨⟨rs⟩, rfl, hd, ?_⟩
    cases rs with
    | nil => exact h
    | cons a rs => exact h.entries_insert _
  · rw [hscan]
    exact Or.inr ⟨⟨e, rfl⟩, rfl⟩

/-- An attempt takes what follows and moves behind it, or brings no records and stays. -/
theorem attempt_at (schema : CommandSchema) (log : Log) (h : r.At p n) (now deadline : Nat) :
    (∃ b, (attempt schema now log r deadline).1 = .done (.ok b) ∧ Takes schema log p n b ∧
        (attempt schema now log r deadline).2.At p (n + b.size)) ∨
      ((∀ b, (attempt schema now log r deadline).1 ≠ .done (.ok b)) ∧
        (attempt schema now log r deadline).2.At p n) := by
  have htakes : ∀ {b r'}, r.fetch schema log = (.ok b, r') →
      Takes schema log p n b ∧ r'.At p (n + b.size) := by
    intro b r' hf
    rcases fetch_at schema log h with ⟨b', hb, htakes, hat⟩ | ⟨⟨e, he⟩, -⟩
    · rw [hf] at hb hat
      cases hb
      exact ⟨htakes, hat⟩
    · rw [hf] at he
      cases he
  have hstays : ∀ {b r'}, r.fetch schema log = (.ok b, r') → b.isEmpty = true → r'.At p n := by
    intro b r' hf hnone
    have hsize : b.size = 0 := by simpa [Batch.isEmpty, Batch.size] using hnone
    simpa [hsize] using (htakes hf).2
  have hends := attempt_attempts schema now log r deadline
  generalize attempt schema now log r deadline = outcome at hends ⊢
  cases hends with
  | fails hf =>
      rcases fetch_at schema log h with ⟨b, hb, -⟩ | ⟨-, hr⟩
      · rw [hf] at hb
        cases hb
      · rw [hf] at hr
        exact Or.inr ⟨nofun, h.of_positions (congrArg Reader.positions hr)⟩
  | brings hf hsome => exact Or.inl ⟨_, rfl, htakes hf⟩
  | refuses hf hnone hu =>
      exact Or.inr ⟨nofun, (hstays hf hnone).of_positions (ensureUsable_positions hu)⟩
  | expires hf hnone hu hdue => exact Or.inl ⟨_, rfl, htakes hf⟩
  | waits hf hnone hu hearly => exact Or.inr ⟨nofun, hstays hf hnone⟩

/-- A step of a poll takes what follows and moves behind it, or brings no records and stays. -/
theorem stepPoll_at (schema : CommandSchema) (log : Log) (h : r.At p n) (now : Nat) (poll : Poll) :
    (∃ b, (r.stepPoll schema now log poll).1 = .done (.ok b) ∧ Takes schema log p n b ∧
        (r.stepPoll schema now log poll).2.At p (n + b.size)) ∨
      ((∀ b, (r.stepPoll schema now log poll).1 ≠ .done (.ok b)) ∧
        (r.stepPoll schema now log poll).2.At p n) := by
  rcases stepPoll_cases schema now r poll with ⟨err, r', hu, hstep⟩ | ⟨deadline, hstep⟩
  · rw [hstep]
    exact Or.inr ⟨nofun, h.of_positions (ensureUsable_positions hu)⟩
  · rw [hstep]
    exact attempt_at schema log h now deadline

end Fetching
end Reader

namespace Log.Tells

variable {schema : CommandSchema} {log : Log} {p : Partition} {n : Nat}
  {commands : List QueuedCommand} {b : CommandBatch}

/-- What is taken goes on where what has been told ends. -/
theorem takes (h : log.Tells schema p n commands) (hb : Reader.Takes schema log p n b) :
    log.Tells schema p (n + b.size) (commands ++ b.commands) :=
  h.extend hb

/-- Where a poll that may take something takes nothing, the end is reached. -/
theorem takes_nothing (h : log.Tells schema p n commands) (hb : Reader.Takes schema log p n b)
    (hempty : b.isEmpty) (hroom : 1 ≤ log.settings.maxPollRecords) :
    n = (log.written p).length := by
  have hlen := (decodeEntries_ok hb).2.1
  have hnil : b.records = [] := by simpa [Batch.isEmpty] using hempty
  rw [hnil, List.length_take, List.length_drop, List.length_nil] at hlen
  have := h.bound
  omega

end Log.Tells
end ReplicatedLog
