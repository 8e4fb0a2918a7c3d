import ReplicatedLog.Proofs.Log.Growth
import ReplicatedLog.Proofs.Log.Polls

/-!
# What a reader finds

A reader of any partitions, with keys and values of any types, fetches what lies past
its positions.

* `Reader.Shows`: what a batch shows is in the log, at the places that it tells;
* `Reader.HasUnread`: there is an entry past one of the positions;
* `fetch_empty`: a fetch that may take something and takes nothing has left nothing
  unread.
-/

namespace ReplicatedLog
namespace Reader

variable {κ ν : Type} {schema : Schema κ ν} {log : Log} {p : Partition}

section Decoding

theorem decodeEntry_place {offset : Nat} {e : Entry} {r : Record κ ν}
    (h : decodeEntry schema p offset e = .ok r) : r.partition = p ∧ r.offset = offset := by
  obtain ⟨hpartition, hoffset, -⟩ := decodeEntry_of_ok h
  exact ⟨hpartition, hoffset⟩

/-- What entries that follow one another show, each at its offset and in their order. -/
theorem decodeEntries_shows :
    ∀ {offset : Nat} {es : List Entry} {rs : List (Record κ ν)},
      decodeEntries schema p offset es = .ok rs →
        rs.length = es.length ∧
        (∀ r ∈ rs, ∃ i e, es[i]? = some e ∧ decodeEntry schema p (offset + i) e = .ok r) ∧
        rs.Pairwise fun a b => a.offset < b.offset
  | _, [], rs, h => by
      cases h
      simp
  | offset, e :: es, rs, h => by
      obtain ⟨r, rest, rfl, hr, hrs⟩ := decodeEntries_cons_of_ok h
      obtain ⟨hlen, hshows, hordered⟩ := decodeEntries_shows hrs
      refine ⟨by simp [hlen], ?_, List.pairwise_cons.2 ⟨?_, hordered⟩⟩
      · intro a ha
        rcases List.mem_cons.1 ha with rfl | ha
        · exact ⟨0, e, rfl, hr⟩
        · obtain ⟨i, f, hf, hd⟩ := hshows a ha
          refine ⟨i + 1, f, hf, ?_⟩
          rw [show offset + (i + 1) = offset + 1 + i by omega]
          exact hd
      · intro a ha
        obtain ⟨i, f, -, hd⟩ := hshows a ha
        rw [(decodeEntry_place hr).2, (decodeEntry_place hd).2]
        omega

end Decoding

section Scanning

/-- What a batch shows is in the log: each record is an entry at its place, decoded, and the records
of one partition are in the order of their offsets. -/
structure Shows (schema : Schema κ ν) (log : Log) (b : Batch κ ν) : Prop where
  there : ∀ r ∈ b.records, ∃ e, (log.written r.partition)[r.offset]? = some e ∧
    decodeEntry schema r.partition r.offset e = .ok r
  ordered : b.records.Pairwise fun a b => a.partition = b.partition → a.offset < b.offset

/-- One partition of a scan: it is skipped, or some of its entries are read. -/
theorem scan_cons {room position : Nat} {rest : List (Partition × Nat)} {found : Found κ ν}
    (hroom : room ≠ 0) (h : scan schema log room ((p, position) :: rest) = .ok found) :
    (log.written p = [] ∧ scan schema log room rest = .ok found) ∨
      ∃ es rs later, es = ((log.written p).drop position).take room ∧
        decodeEntries schema p position es = .ok rs ∧
        scan schema log (room - es.length) rest = .ok later ∧
        found.records = rs ++ later.records ∧
        found.moved =
          if es.isEmpty then later.moved else (p, position + es.length) :: later.moved := by
  cases hread : log.read p position room with
  | none =>
      rw [scan_of_none hroom hread] at h
      split at h
      · exact Or.inl ⟨Log.read_eq_none hread, h⟩
      · cases h
  | some es =>
      cases hrs : decodeEntries schema p position es with
      | error err =>
          rw [scan_of_garbled hroom hread hrs] at h
          cases h
      | ok rs =>
          rw [scan_of_some hroom hread hrs] at h
          cases hlater : scan schema log (room - es.length) rest with
          | error err =>
              rw [hlater] at h
              cases h
          | ok later =>
              rw [hlater] at h
              cases h
              exact Or.inr ⟨es, rs, later, Log.read_eq_some hread, hrs, hlater, rfl, rfl⟩

/-- What a scan finds depends on nothing of the log but its topics. -/
theorem scan_of_topics {after : Log} (h : after.topics = log.topics) (room : Nat)
    (ps : List (Partition × Nat)) : scan schema after room ps = scan schema log room ps := by
  induction ps generalizing room with
  | nil => rfl
  | cons a ps ih =>
      obtain ⟨p, n⟩ := a
      have hread : after.read p n room = log.read p n room := by
        rw [Log.read, Log.read, Log.entries, Log.entries, h]
      have hcount : after.partitionCount p.topic = log.partitionCount p.topic := by
        rw [Log.partitionCount, Log.partitionCount, h]
      simp only [scan, hread, hcount, ih]

/-- What a scan finds is there, in the partitions that were scanned. -/
theorem scan_shows {ps : List (Partition × Nat)} :
    ∀ {room : Nat} {found : Found κ ν}, (ps.Pairwise fun a b => a.1 ≠ b.1) →
      scan schema log room ps = .ok found →
        Shows schema log ⟨found.records⟩ ∧ ∀ r ∈ found.records, ∃ n, (r.partition, n) ∈ ps := by
  induction ps with
  | nil =>
      intro room found _ h
      cases h
      exact ⟨⟨by simp, by simp⟩, by simp⟩
  | cons a rest ih =>
      obtain ⟨p, position⟩ := a
      intro room found hps h
      obtain ⟨hp, hrest⟩ := List.pairwise_cons.1 hps
      by_cases hroom : room = 0
      · rw [hroom, scan_zero] at h
        cases h
        exact ⟨⟨by simp, by simp⟩, by simp⟩
      rcases scan_cons hroom h with ⟨-, h⟩ | ⟨es, rs, later, hes, hrs, hlater, hrecords, -⟩
      · obtain ⟨hshows, hmem⟩ := ih hrest h
        refine ⟨hshows, fun r hr => ?_⟩
        obtain ⟨n, hn⟩ := hmem r hr
        exact ⟨n, List.mem_cons_of_mem _ hn⟩
      · obtain ⟨-, hthere, hordered⟩ := decodeEntries_shows hrs
        obtain ⟨hshows, hmem⟩ := ih hrest hlater
        have hown : ∀ r ∈ rs, r.partition = p ∧ ∃ e, (log.written p)[r.offset]? = some e ∧
            decodeEntry schema p r.offset e = .ok r := by
          intro r hr
          obtain ⟨i, e, he, hd⟩ := hthere r hr
          obtain ⟨hpartition, hoffset⟩ := decodeEntry_place hd
          refine ⟨hpartition, e, ?_, hoffset ▸ hd⟩
          rw [hes, List.getElem?_take] at he
          split at he
          · rw [hoffset, ← List.getElem?_drop]
            exact he
          · cases he
        rw [hrecords]
        refine ⟨⟨fun r hr => ?_, List.pairwise_append.2 ⟨?_, hshows.ordered, ?_⟩⟩, fun r hr => ?_⟩
        · rcases List.mem_append.1 hr with hr | hr
          · obtain ⟨hpartition, e, he, hd⟩ := hown r hr
            rw [hpartition]
            exact ⟨e, he, hd⟩
          · exact hshows.there r hr
        · exact hordered.imp fun {a b} hlt (_ : a.partition = b.partition) => hlt
        · -- a partition is scanned once, so that what comes later is in another one
          intro r hr s hs hsame
          obtain ⟨n, hn⟩ := hmem s hs
          exact absurd ((hown r hr).1.symm.trans hsame) (hp _ hn)
        · rcases List.mem_append.1 hr with hr | hr
          · rw [(hown r hr).1]
            exact ⟨position, List.mem_cons_self⟩
          · obtain ⟨n, hn⟩ := hmem r hr
            exact ⟨n, List.mem_cons_of_mem _ hn⟩

/-- A scan that may find something and finds nothing has come to the end of every partition. -/
theorem scan_empty {ps : List (Partition × Nat)} :
    ∀ {room : Nat} {found : Found κ ν}, room ≠ 0 → scan schema log room ps = .ok found →
      found.records = [] →
        found.moved = [] ∧ ∀ q n, (q, n) ∈ ps → (log.written q).length ≤ n := by
  induction ps with
  | nil =>
      intro room found _ h _
      cases h
      simp
  | cons a rest ih =>
      obtain ⟨p, position⟩ := a
      intro room found hroom h hnone
      rcases scan_cons hroom h with ⟨hempty, h⟩ |
        ⟨es, rs, later, hes, hrs, hlater, hrecords, hmoved⟩
      · obtain ⟨hmoved, hends⟩ := ih hroom h hnone
        refine ⟨hmoved, fun q n hmem => ?_⟩
        rcases List.mem_cons.1 hmem with hmem | hmem
        · cases hmem
          simp [hempty]
        · exact hends q n hmem
      · rw [hrecords, List.append_eq_nil_iff] at hnone
        have hlen := (decodeEntries_shows hrs).1
        rw [hnone.1, List.length_nil] at hlen
        have hnil : es = [] := List.length_eq_zero_iff.1 hlen.symm
        obtain ⟨hlast, hends⟩ := ih (by rw [hnil]; exact hroom) hlater hnone.2
        refine ⟨by rw [hmoved, hnil]; exact hlast, fun q n hmem => ?_⟩
        rcases List.mem_cons.1 hmem with hmem | hmem
        · cases hmem
          have hcut := congrArg List.length hes
          rw [hnil, List.length_take, List.length_drop, List.length_nil] at hcut
          omega
        · exact hends q n hmem

end Scanning

section Fetching

variable {r r' : Reader} {b : Batch κ ν}

/-- There is an entry past the position of one of the partitions of the reader. -/
def HasUnread (log : Log) (r : Reader) : Prop :=
  ∃ p n, (p, n) ∈ r.positions.entries ∧ n < (log.written p).length

theorem entries_apart (m : SortedMap Partition Nat) :
    m.entries.Pairwise fun a b => a.1 ≠ b.1 := by
  refine m.sorted.imp fun {a b} hlt heq => ?_
  rw [heq, show compare b.1 b.1 = .eq from Std.ReflCmp.compare_self] at hlt
  cases hlt

theorem fetch_shows (hf : r.fetch schema log = (.ok b, r')) : Shows schema log b := by
  unfold fetch at hf
  split at hf
  · cases hf
  next found hscan =>
    cases hf
    exact (scan_shows (entries_apart r.positions) hscan).1

theorem mem_foldl_insert {moved : List (Partition × Nat)} {e : Partition × Nat} :
    ∀ {m : SortedMap Partition Nat},
      e ∈ (moved.foldl (fun m e => m.insert e.1 e.2) m).entries → e ∈ moved ∨ e ∈ m.entries := by
  induction moved with
  | nil => exact fun h => Or.inr h
  | cons d moved ih =>
      intro m h
      rcases ih h with h | h
      · exact Or.inl (List.mem_cons_of_mem _ h)
      · rcases SortedMap.mem_insertEntry h with rfl | h
        · exact Or.inl List.mem_cons_self
        · exact Or.inr h

/-- A fetch that may take something and takes nothing leaves the reader, with nothing unread. -/
theorem fetch_empty (hroom : log.settings.maxPollRecords ≠ 0)
    (hf : r.fetch schema log = (.ok b, r')) (hb : b.isEmpty = true) :
    r' = r ∧ ¬ r.HasUnread log := by
  unfold fetch at hf
  split at hf
  · cases hf
  next found hscan =>
    cases hf
    have hnone : found.records = [] := by simpa [Batch.isEmpty] using hb
    obtain ⟨hmoved, hends⟩ := scan_empty hroom hscan hnone
    refine ⟨by rw [hmoved]; rfl, fun ⟨p, n, hmem, hlt⟩ => ?_⟩
    exact absurd (hends p n hmem) (Nat.not_le.2 hlt)

/-- What a step of a poll brings is in the log. -/
theorem stepPoll_shows {now : Nat} {poll : Poll}
    (h : (r.stepPoll schema now log poll).1 = .done (.ok b)) : Shows schema log b := by
  rcases stepPoll_cases schema now r poll with ⟨err, r', -, hstep⟩ | ⟨deadline, hstep⟩
  · rw [hstep] at h
    cases h
  · rw [hstep] at h
    have hends := attempt_attempts schema now log r deadline
    generalize r.attempt schema now log deadline = outcome at hends h
    cases hends with
    | brings hf hsome =>
        cases h
        exact fetch_shows hf
    | expires hf hnone hu hdue =>
        cases h
        exact fetch_shows hf
    | fails hf => cases h
    | refuses hf hnone hu => cases h
    | waits hf hnone hu hearly => cases h

end Fetching

end Reader
end ReplicatedLog
