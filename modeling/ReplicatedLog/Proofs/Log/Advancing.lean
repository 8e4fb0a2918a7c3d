import ReplicatedLog.Proofs.Data.Updating
import ReplicatedLog.Proofs.Log.Scanning

/-!
# How a reader moves on

A batch is made of one run of offsets for each partition, and the positions move behind the
runs.

* `Reader.Advances`: a batch lies between the positions before and those after;
* `fetch_advances`: every fetch that brings a batch advances so, by no more records than the
  settings of the log allow, and `Advances.within`: it stays within the log;
* `fetch_fails`: the reasons for which a fetch can fail;
* `assign_get?` and `seekToBeginning_get?`: where reassignments and seeks leave the positions.
-/

namespace ReplicatedLog

variable {κ ν : Type}

namespace Batch

/-- The offsets of the records of one partition, in their order. -/
def offsets (b : Batch κ ν) (p : Partition) : List Nat :=
  (b.ofPartition p).map Record.offset

variable {rs ss : List (Record κ ν)} {p : Partition}

@[simp] theorem offsets_nil (p : Partition) : (⟨[]⟩ : Batch κ ν).offsets p = [] := rfl

theorem offsets_append (rs ss : List (Record κ ν)) (p : Partition) :
    (⟨rs ++ ss⟩ : Batch κ ν).offsets p =
      (⟨rs⟩ : Batch κ ν).offsets p ++ (⟨ss⟩ : Batch κ ν).offsets p := by
  simp [offsets, ofPartition]

theorem offsets_of_forall_eq (h : ∀ r ∈ rs, r.partition = p) :
    (⟨rs⟩ : Batch κ ν).offsets p = rs.map Record.offset := by
  rw [offsets, ofPartition, List.filter_eq_self.2]
  exact fun r hr => decide_eq_true (h r hr)

theorem offsets_of_forall_ne (h : ∀ r ∈ rs, r.partition ≠ p) :
    (⟨rs⟩ : Batch κ ν).offsets p = [] := by
  rw [offsets, ofPartition, List.filter_eq_nil_iff.2, List.map_nil]
  exact fun r hr => by simpa using h r hr

theorem mem_offsets {b : Batch κ ν} {n : Nat} :
    n ∈ b.offsets p ↔ ∃ r ∈ b.records, r.partition = p ∧ r.offset = n := by
  simp [offsets, ofPartition, and_assoc]

end Batch

namespace Reader

variable {schema : Schema κ ν} {log : Log} {r : Reader} {p : Partition}

section Scanning

theorem decodeEntries_offsets {es : List Entry} :
    ∀ {offset : Nat} {rs : List (Record κ ν)}, decodeEntries schema p offset es = .ok rs →
      rs.map Record.offset = List.range' offset es.length ∧ ∀ r ∈ rs, r.partition = p := by
  induction es with
  | nil =>
      rintro offset rs h
      cases h
      constructor
      · rfl
      · nofun
  | cons e es ih =>
      rintro offset rs h
      obtain ⟨r, rest, rfl, hr, hrs⟩ := decodeEntries_cons_of_ok h
      obtain ⟨hoffsets, hpartitions⟩ := ih hrs
      obtain ⟨hpartition, hoffset⟩ := decodeEntry_place hr
      constructor
      · rw [List.map_cons, hoffsets, hoffset, List.length_cons, List.range'_succ]
      · rintro a ha
        rcases List.mem_cons.1 ha with rfl | ha
        · exact hpartition
        · exact hpartitions a ha

/-- What a scan has found, in terms of the partitions that were to be scanned. -/
structure Found.Follows (ps : List (Partition × Nat)) (found : Found κ ν) : Prop where
  ordered : found.records.Pairwise fun a b => (compare a.partition b.partition).isLE
  scanned : ∀ r ∈ found.records, r.partition ∈ ps.map Prod.fst
  runs : ∀ p n, (p, n) ∈ ps →
    Batch.offsets ⟨found.records⟩ p = List.range' n (Batch.offsets ⟨found.records⟩ p).length
  /-- The partitions that have a run are the ones that move, each behind its run. -/
  moved : ∀ p n, (p, n) ∈ ps → ∀ m, (p, m) ∈ found.moved ↔
    Batch.offsets ⟨found.records⟩ p ≠ [] ∧ m = n + (Batch.offsets ⟨found.records⟩ p).length
  keys : (found.moved.map Prod.fst).Sublist (ps.map Prod.fst)

theorem Found.follows_nil (ps : List (Partition × Nat)) :
    Follows ps (⟨[], []⟩ : Found κ ν) := by
  constructor
  · exact List.Pairwise.nil
  · nofun
  · rintro p n -
    rfl
  · simp
  · exact List.nil_sublist _

/-- A partition of which nothing is read changes nothing. -/
theorem Found.Follows.skip {found : Found κ ν} {n : Nat} {rest : List (Partition × Nat)}
    (hp : ∀ e ∈ rest, compare p e.1 = .lt) (h : Follows rest found) :
    Follows ((p, n) :: rest) found := by
  have hout : p ∉ rest.map Prod.fst := SortedMap.not_mem_of_forall_lt hp
  have hnone : Batch.offsets ⟨found.records⟩ p = [] := by
    refine Batch.offsets_of_forall_ne fun r hr hsame => hout ?_
    exact hsame ▸ h.scanned r hr
  have hstill : ∀ m, (p, m) ∉ found.moved := fun m hmem =>
    hout (h.keys.subset (List.mem_map.2 ⟨(p, m), hmem, rfl⟩))
  constructor
  · exact h.ordered
  · exact fun r hr => List.mem_cons_of_mem _ (h.scanned r hr)
  · rintro q k hmem
    rcases List.mem_cons.1 hmem with heq | hmem
    · cases heq
      rw [hnone]
      rfl
    · exact h.runs q k hmem
  · rintro q k hmem m
    rcases List.mem_cons.1 hmem with heq | hmem
    · cases heq
      simp [hnone, hstill m]
    · exact h.moved q k hmem m
  · exact h.keys.cons _

/-- The run of one partition comes before those of the partitions behind it. -/
theorem Found.Follows.read {later : Found κ ν} {n : Nat} {rest : List (Partition × Nat)}
    {es : List Entry} {rs : List (Record κ ν)} (hp : ∀ e ∈ rest, compare p e.1 = .lt)
    (hrs : decodeEntries schema p n es = .ok rs) (h : Follows rest later) :
    Follows ((p, n) :: rest) ⟨rs ++ later.records,
      if es.isEmpty then later.moved else (p, n + es.length) :: later.moved⟩ := by
  obtain ⟨hoffsets, hown⟩ := decodeEntries_offsets hrs
  by_cases hes : es = []
  · subst hes
    cases hrs
    exact h.skip hp
  have hne : ∀ {q}, q ∈ rest.map Prod.fst → p ≠ q := by
    rintro q hmem rfl
    exact SortedMap.not_mem_of_forall_lt hp hmem
  have hrun : Batch.offsets ⟨rs ++ later.records⟩ p = List.range' n es.length := by
    rw [Batch.offsets_append, Batch.offsets_of_forall_eq hown, hoffsets,
      Batch.offsets_of_forall_ne fun r hr hsame => hne (h.scanned r hr) hsame.symm,
      List.append_nil]
  have hothers : ∀ {q}, q ∈ rest.map Prod.fst →
      Batch.offsets ⟨rs ++ later.records⟩ q = Batch.offsets ⟨later.records⟩ q := by
    rintro q hq
    rw [Batch.offsets_append,
      Batch.offsets_of_forall_ne fun r hr hsame => hne hq ((hown r hr).symm.trans hsame),
      List.nil_append]
  have hkey : ∀ {q k}, (q, k) ∈ rest → q ∈ rest.map Prod.fst := fun hmem =>
    List.mem_map.2 ⟨_, hmem, rfl⟩
  rw [if_neg (by simpa using hes)]
  constructor
  · refine List.pairwise_append.2 ⟨?_, h.ordered, ?_⟩
    · refine List.pairwise_of_forall_mem_list fun a ha b hb => ?_
      rw [hown a ha, hown b hb, show compare p p = .eq from Std.ReflCmp.compare_self]
      rfl
    · rintro a ha b hb
      obtain ⟨e, he, hsame⟩ := List.mem_map.1 (h.scanned b hb)
      rw [hown a ha, ← hsame, hp e he]
      rfl
  · rintro r hr
    rcases List.mem_append.1 hr with hr | hr
    · rw [hown r hr]
      exact List.mem_cons_self
    · exact List.mem_cons_of_mem _ (h.scanned r hr)
  · rintro q k hmem
    rcases List.mem_cons.1 hmem with heq | hmem
    · cases heq
      rw [hrun, List.length_range']
    · rw [hothers (hkey hmem)]
      exact h.runs q k hmem
  · rintro q k hmem m
    rcases List.mem_cons.1 hmem with heq | hmem
    · cases heq
      have hstill : (p, m) ∉ later.moved := fun hm =>
        hne (h.keys.subset (List.mem_map.2 ⟨_, hm, rfl⟩)) rfl
      rw [hrun, List.length_range']
      simp [hstill, hes]
    · rw [hothers (hkey hmem), List.mem_cons, ← h.moved q k hmem m]
      constructor
      · rintro (heq | hm)
        · cases heq
          exact absurd rfl (hne (hkey hmem))
        · exact hm
      · exact Or.inr
  · exact h.keys.cons_cons _

/-- A scan finds one run for each partition, and no more records than there is room. -/
theorem scan_follows {ps : List (Partition × Nat)} :
    ∀ {room : Nat} {found : Found κ ν}, (ps.Pairwise fun a b => compare a.1 b.1 = .lt) →
      scan schema log room ps = .ok found →
        found.records.length ≤ room ∧ found.Follows ps := by
  induction ps with
  | nil =>
      rintro room found - h
      cases h
      constructor
      · exact Nat.zero_le _
      · exact Found.follows_nil _
  | cons a rest ih =>
      obtain ⟨p, n⟩ := a
      rintro room found hps h
      obtain ⟨hp, hrest⟩ := List.pairwise_cons.1 hps
      by_cases hroom : room = 0
      · rw [hroom, scan_zero] at h
        cases h
        constructor
        · exact Nat.zero_le _
        · exact Found.follows_nil _
      rcases scan_cons hroom h with ⟨-, h⟩ | ⟨es, rs, later, hes, hrs, hlater, hrecords, hmoved⟩
      · obtain ⟨hsize, hfollows⟩ := ih hrest h
        exact ⟨hsize, hfollows.skip hp⟩
      · obtain ⟨hsize, hfollows⟩ := ih hrest hlater
        have hlen := (decodeEntries_shows hrs).1
        have hcut : es.length ≤ room := by
          rw [hes, List.length_take]
          exact Nat.min_le_left _ _
        constructor
        · rw [hrecords, List.length_append, hlen]
          omega
        · have hread := hfollows.read hp hrs
          rw [← hrecords, ← hmoved] at hread
          exact hread

theorem decodeEntries_fails {err : LogError} {es : List Entry} :
    ∀ {offset : Nat}, decodeEntries schema p offset es = .error err →
      ∃ i e, es[i]? = some e ∧ decodeEntry schema p (offset + i) e = .error err := by
  induction es with
  | nil => nofun
  | cons e es ih =>
      rintro offset h
      rcases decodeEntries_cons_of_error h with hr | hrs
      · exact ⟨0, e, rfl, hr⟩
      · obtain ⟨i, f, hf, hd⟩ := ih hrs
        refine ⟨i + 1, f, hf, ?_⟩
        rw [show offset + (i + 1) = offset + 1 + i by omega]
        exact hd

/-- Why a partition cannot be read: its topic is there without it, or one of its entries cannot be
decoded. -/
inductive Unreadable (schema : Schema κ ν) (log : Log) (p : Partition) : LogError → Prop
  | missing (topic : log.partitionCount p.topic ≠ none) (gone : log.entries p = none) :
      Unreadable schema log p (.unknownPartition p)
  | garbled {offset : Nat} {e : Entry} {cause : CodecError}
      (entry : (log.written p)[offset]? = some e)
      (decode : decodeEntry schema p offset e = .error (.codec cause)) :
      Unreadable schema log p (.codec cause)

/-- A scan fails at a partition that cannot be read. -/
theorem scan_fails {ps : List (Partition × Nat)} {err : LogError} :
    ∀ {room : Nat}, scan schema log room ps = .error err →
      ∃ e ∈ ps, Unreadable schema log e.1 err := by
  induction ps with
  | nil => nofun
  | cons a rest ih =>
      obtain ⟨p, n⟩ := a
      rintro room h
      have hlater : ∀ {room}, scan schema log room rest = .error err →
          ∃ e ∈ (p, n) :: rest, Unreadable schema log e.1 err := fun h => by
        obtain ⟨e, he, hfails⟩ := ih h
        exact ⟨e, List.mem_cons_of_mem _ he, hfails⟩
      by_cases hroom : room = 0
      · rw [hroom, scan_zero] at h
        cases h
      cases hread : log.read p n room with
      | none =>
          rw [scan_of_none hroom hread] at h
          split at h
          · exact hlater h
          next hcount =>
            cases h
            refine ⟨(p, n), List.mem_cons_self, .missing hcount ?_⟩
            simpa [Log.read] using hread
      | some es =>
          cases hrs : decodeEntries schema p n es with
          | error err' =>
              rw [scan_of_garbled hroom hread hrs] at h
              cases h
              obtain ⟨i, e, he, hd⟩ := decodeEntries_fails hrs
              obtain ⟨cause, rfl⟩ := decodeEntry_of_error hd
              rw [Log.read_eq_some hread, List.getElem?_take] at he
              split at he
              · rw [List.getElem?_drop] at he
                exact ⟨(p, n), List.mem_cons_self, .garbled he hd⟩
              · cases he
          | ok rs =>
              rw [scan_of_some hroom hread hrs] at h
              cases hscan : scan schema log (room - es.length) rest with
              | error err' =>
                  rw [hscan] at h
                  cases h
                  exact hlater hscan
              | ok later =>
                  rw [hscan] at h
                  cases h

end Scanning

section Fetching

variable {b : Batch κ ν} {r' : Reader}

/-- A batch lies between the positions before and those after: it is one run of offsets for each
partition, in the order of the partitions, and each position moves on by the length of its run. -/
structure Advances (before after : SortedMap Partition Nat) (b : Batch κ ν) : Prop where
  ordered : b.records.Pairwise fun r s => (compare r.partition s.partition).isLE
  assigned : ∀ r ∈ b.records, r.partition ∈ before.keys
  runs : ∀ p n, before.get? p = some n → b.offsets p = List.range' n (b.offsets p).length
  moved : ∀ p n, before.get? p = some n → after.get? p = some (n + (b.offsets p).length)
  keys : after.keys = before.keys

/-- No position is past the end of its partition. -/
def Within (log : Log) (r : Reader) : Prop :=
  ∀ p n, r.positions.get? p = some n → n ≤ (log.written p).length

theorem fetch_advances (hf : r.fetch schema log = (.ok b, r')) :
    b.size ≤ log.settings.maxPollRecords ∧ Advances r.positions r'.positions b := by
  unfold fetch at hf
  split at hf
  · cases hf
  next found hscan =>
    cases hf
    obtain ⟨hsize, hfollows⟩ := scan_follows r.positions.sorted hscan
    have happart : found.moved.Pairwise fun a b => a.1 ≠ b.1 := by
      have hkeys : (r.positions.entries.map Prod.fst).Pairwise (· ≠ ·) :=
        List.pairwise_map.2 (entries_apart r.positions)
      exact List.pairwise_map.1 (hkeys.sublist hfollows.keys)
    refine ⟨hsize, ?_⟩
    constructor
    · exact hfollows.ordered
    · exact hfollows.scanned
    · exact fun p n hn => hfollows.runs p n (SortedMap.get?_eq_some_iff.1 hn)
    · rintro p n hn
      have hmoved := hfollows.moved p n (SortedMap.get?_eq_some_iff.1 hn)
      by_cases hrun : Batch.offsets ⟨found.records⟩ p = []
      · -- a partition without a run is not among those that move
        rw [SortedMap.get?_foldl_insert_of_forall_ne, hn, hrun]
        · rfl
        · rintro ⟨q, m⟩ hmem rfl
          exact ((hmoved m).1 hmem).1 hrun
      · exact SortedMap.get?_foldl_insert_of_mem happart ((hmoved _).2 ⟨hrun, rfl⟩)
    · refine SortedMap.keys_foldl_insert fun e he => ?_
      exact hfollows.keys.subset (List.mem_map.2 ⟨e, he, rfl⟩)

/-- A fetch that brings a batch stays within the log. -/
theorem Advances.within {before after : Reader}
    (h : Advances before.positions after.positions b) (hb : Shows schema log b)
    (hw : before.Within log) : after.Within log := by
  rintro p m hm
  have hmem : p ∈ before.positions.keys := h.keys ▸ SortedMap.mem_keys_iff.2 ⟨m, hm⟩
  obtain ⟨n, hn⟩ := SortedMap.mem_keys_iff.1 hmem
  have hmoved : m = n + (b.offsets p).length :=
    Option.some.inj (hm.symm.trans (h.moved p n hn))
  subst hmoved
  by_cases hnone : b.offsets p = []
  · rw [hnone]
    exact hw p n hn
  · -- the last record of the run is in the log
    have hpos : 0 < (b.offsets p).length := List.length_pos_iff.2 hnone
    have hlast : n + ((b.offsets p).length - 1) ∈ b.offsets p := by
      rw [h.runs p n hn, List.length_range', List.mem_range'_1]
      omega
    obtain ⟨r, hr, rfl, hoffset⟩ := Batch.mem_offsets.1 hlast
    obtain ⟨e, he, -⟩ := hb.there r hr
    have hlt := (List.getElem?_eq_some_iff.1 he).1
    omega

theorem fetch_fails {err : LogError} (hf : r.fetch schema log = (.error err, r')) :
    (∃ p ∈ r.assignment, Unreadable schema log p err) ∧ r' = r := by
  unfold fetch at hf
  split at hf
  next hscan =>
    cases hf
    obtain ⟨e, he, hfails⟩ := scan_fails hscan
    exact ⟨⟨e.1, List.mem_map.2 ⟨e, he, rfl⟩, hfails⟩, rfl⟩
  next => cases hf

/-- A fetch that takes nothing leaves the reader as it is. -/
theorem fetch_nothing (hf : r.fetch schema log = (.ok b, r')) (hb : b.isEmpty = true) :
    r' = r := by
  unfold fetch at hf
  split at hf
  · cases hf
  next found hscan =>
    cases hf
    have hfollows := (scan_follows r.positions.sorted hscan).2
    have hnone : found.records = [] := by simpa [Batch.isEmpty] using hb
    have hmoved : found.moved = [] := by
      refine List.eq_nil_iff_forall_not_mem.2 fun e he => ?_
      obtain ⟨d, hd, hsame⟩ := List.mem_map.1 (hfollows.keys.subset (List.mem_map.2 ⟨e, he, rfl⟩))
      have hpart : (e.1, d.2) ∈ r.positions.entries := by
        rw [← hsame]
        exact hd
      have hrun := ((hfollows.moved _ _ hpart e.2).1 he).1
      rw [hnone] at hrun
      exact hrun rfl
    rw [hmoved]
    rfl

/-- A fetch fails at a partition, brings records, or finds nothing; it moves the reader only in the
second case. -/
theorem fetch_cases (schema : Schema κ ν) (log : Log) (r : Reader) :
    (∃ err, ∃ p ∈ r.assignment, Unreadable schema log p err ∧
        r.fetch schema log = (.error err, r)) ∨
      (∃ b r', b.isEmpty = false ∧ r.fetch schema log = (.ok b, r')) ∨
      r.fetch schema log = (.ok .empty, r) := by
  rcases hf : r.fetch schema log with ⟨err | b, r'⟩
  · obtain ⟨⟨p, hp, hunreadable⟩, rfl⟩ := fetch_fails hf
    exact Or.inl ⟨err, p, hp, hunreadable, rfl⟩
  · obtain ⟨records⟩ := b
    cases records with
    | cons a records => exact Or.inr (Or.inl ⟨_, r', rfl, rfl⟩)
    | nil =>
        obtain rfl := fetch_nothing hf rfl
        exact Or.inr (Or.inr rfl)

end Fetching

section Assigning

/-- What an assignment leaves of a position. -/
theorem assign_get? (h : r.isClosed = false) (ps : List Partition) (p : Partition) :
    (r.assign ps).2.positions.get? p = if p ∈ ps then some ((r.position p).getD 0) else none := by
  have hfold : ∀ (m : SortedMap Partition Nat),
      (ps.foldl (fun m p => m.insert p ((r.position p).getD 0)) m).get? p =
        if p ∈ ps then some ((r.position p).getD 0) else m.get? p := by
    induction ps with
    | nil => exact fun _ => rfl
    | cons q ps ih =>
        rintro m
        rw [List.foldl_cons, ih]
        by_cases hps : p ∈ ps
        · rw [if_pos hps, if_pos (List.mem_cons_of_mem _ hps)]
        · by_cases hq : p = q
          · subst hq
            rw [if_neg hps, if_pos List.mem_cons_self, SortedMap.get?_insert_self]
          · rw [if_neg hps, if_neg (by simp [hq, hps]), SortedMap.get?_insert_of_ne _ _ hq]
  rw [assign, h]
  exact hfold ∅

/-- Going back leaves the positions of other partitions, and those that it moves are zero. -/
theorem rewind_get? {ps : List Partition} {p : Partition} :
    ∀ {m : SortedMap Partition Nat},
      (rewind ps m).2.get? p = m.get? p ∨ (p ∈ ps ∧ (rewind ps m).2.get? p = some 0) := by
  induction ps with
  | nil => exact Or.inl rfl
  | cons q ps ih =>
      rintro m
      rw [rewind]
      split
      · rcases ih (m := m.insert q 0) with hsame | ⟨hmem, hzero⟩
        · by_cases hq : p = q
          · subst hq
            right
            constructor
            · exact List.mem_cons_self
            · rw [hsame, SortedMap.get?_insert_self]
          · left
            rw [hsame, SortedMap.get?_insert_of_ne _ _ hq]
        · right
          exact ⟨List.mem_cons_of_mem _ hmem, hzero⟩
      · exact Or.inl rfl

theorem seekToBeginning_get? (r : Reader) (ps : List Partition) (p : Partition) :
    (r.seekToBeginning ps).2.positions.get? p = r.positions.get? p ∨
      (p ∈ ps ∧ (r.seekToBeginning ps).2.positions.get? p = some 0) := by
  rw [seekToBeginning]
  split
  · exact Or.inl rfl
  · exact rewind_get?

end Assigning

end Reader
end ReplicatedLog
