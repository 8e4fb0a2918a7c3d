/-!
# Maps in the order of their keys

A finite map as the list of its entries in ascending order of the keys, each key
once.  Since the list is determined by the entries, two maps with the same
entries are equal.

* `SortedMap.get?_insert` and `SortedMap.get?_erase` say what the two updates do
  to every look-up, `SortedMap.size_insert` and `SortedMap.size_erase` what they do
  to the size;
* `SortedMap.ofList_entries` says that a map can be built again from its entries.
-/

namespace ReplicatedLog

/-- A finite map whose entries are listed in ascending order of the keys. -/
structure SortedMap (κ ν : Type) [Ord κ] where
  entries : List (κ × ν)
  sorted : entries.Pairwise fun a b => compare a.1 b.1 = .lt

namespace SortedMap

section Entries

variable {κ ν : Type} [Ord κ]

/-- Puts an entry in its place among sorted ones, over the entry with the same key. -/
def insertEntry (k : κ) (v : ν) : List (κ × ν) → List (κ × ν)
  | [] => [(k, v)]
  | (l, w) :: rest =>
      match compare k l with
      | .lt => (k, v) :: (l, w) :: rest
      | .eq => (k, v) :: rest
      | .gt => (l, w) :: insertEntry k v rest

/-- Leaves out the entry with the key. -/
def eraseEntry (k : κ) (entries : List (κ × ν)) : List (κ × ν) :=
  entries.filter fun e => compare k e.1 != .eq

/-- The value of the first entry with the key. -/
def findEntry (k : κ) : List (κ × ν) → Option ν
  | [] => none
  | (l, w) :: rest => if compare k l = .eq then some w else findEntry k rest

theorem mem_insertEntry {k : κ} {v : ν} {e : κ × ν} {entries : List (κ × ν)}
    (h : e ∈ insertEntry k v entries) : e = (k, v) ∨ e ∈ entries := by
  induction entries with
  | nil => simpa [insertEntry] using h
  | cons d rest ih =>
      obtain ⟨l, w⟩ := d
      simp only [insertEntry] at h
      split at h
      · simpa using h
      · rcases List.mem_cons.1 h with h | h
        · exact Or.inl h
        · exact Or.inr (List.mem_cons_of_mem _ h)
      · rcases List.mem_cons.1 h with h | h
        · exact Or.inr (h ▸ List.mem_cons_self)
        · exact (ih h).imp id (List.mem_cons_of_mem _)

variable [Std.TransOrd κ]

theorem sorted_insertEntry (k : κ) (v : ν) {entries : List (κ × ν)}
    (h : entries.Pairwise fun a b => compare a.1 b.1 = .lt) :
    (insertEntry k v entries).Pairwise fun a b => compare a.1 b.1 = .lt := by
  induction entries with
  | nil => simp [insertEntry]
  | cons d rest ih =>
      obtain ⟨l, w⟩ := d
      rw [List.pairwise_cons] at h
      simp only [insertEntry]
      split
      next hlt =>
        refine List.pairwise_cons.2 ⟨?_, List.pairwise_cons.2 h⟩
        intro e he
        rcases List.mem_cons.1 he with he | he
        · exact he ▸ hlt
        · exact Std.TransCmp.lt_trans hlt (h.1 e he)
      next heq =>
        refine List.pairwise_cons.2 ⟨?_, h.2⟩
        intro e he
        exact Std.TransCmp.lt_of_eq_of_lt heq (h.1 e he)
      next hgt =>
        refine List.pairwise_cons.2 ⟨?_, ih h.2⟩
        intro e he
        rcases mem_insertEntry he with he | he
        · exact he ▸ Std.OrientedCmp.gt_iff_lt.1 hgt
        · exact h.1 e he

end Entries

section Maps

variable {κ ν : Type} [Ord κ]

instance [DecidableEq κ] [DecidableEq ν] : DecidableEq (SortedMap κ ν) := fun a b =>
  if h : a.entries = b.entries then
    isTrue (by cases a; cases b; cases h; rfl)
  else isFalse (by intro hab; exact h (by rw [hab]))

/-- The map without entries. -/
def empty : SortedMap κ ν := ⟨[], List.Pairwise.nil⟩

instance : EmptyCollection (SortedMap κ ν) := ⟨empty⟩

instance : Inhabited (SortedMap κ ν) := ⟨empty⟩

/-- The map with the key set to a value. -/
def insert [Std.TransOrd κ] (m : SortedMap κ ν) (k : κ) (v : ν) : SortedMap κ ν :=
  ⟨insertEntry k v m.entries, sorted_insertEntry k v m.sorted⟩

/-- The map without the key. -/
def erase (m : SortedMap κ ν) (k : κ) : SortedMap κ ν :=
  ⟨eraseEntry k m.entries, m.sorted.filter _⟩

/-- The value of a key. -/
def get? (m : SortedMap κ ν) (k : κ) : Option ν :=
  findEntry k m.entries

/-- Whether the map has the key. -/
def contains (m : SortedMap κ ν) (k : κ) : Bool :=
  (m.get? k).isSome

/-- The keys in ascending order. -/
def keys (m : SortedMap κ ν) : List κ :=
  m.entries.map Prod.fst

/-- The number of entries. -/
def size (m : SortedMap κ ν) : Nat :=
  m.entries.length

/-- The map of a list of entries; a later entry replaces an earlier one with its key. -/
def ofList [Std.TransOrd κ] (entries : List (κ × ν)) : SortedMap κ ν :=
  entries.foldl (fun m e => m.insert e.1 e.2) empty

@[simp] theorem get?_empty (k : κ) : (∅ : SortedMap κ ν).get? k = none := rfl

end Maps

section Lookups

variable {κ ν : Type} [Ord κ] [Std.TransOrd κ]

theorem findEntry_insertEntry (j k : κ) (v : ν) (entries : List (κ × ν)) :
    findEntry j (insertEntry k v entries) =
      if compare j k = .eq then some v else findEntry j entries := by
  induction entries with
  | nil => rfl
  | cons d rest ih =>
      obtain ⟨l, w⟩ := d
      simp only [insertEntry]
      split
      next => simp [findEntry]
      next heq =>
        have : compare j l = compare j k := (Std.TransCmp.congr_right heq).symm
        simp only [findEntry, this]
        split <;> rfl
      next hgt =>
        simp only [findEntry, ih]
        by_cases hl : compare j l = .eq
        · have hk : ¬ compare j k = .eq := by
            intro hk
            have : compare k l = .eq :=
              Std.TransCmp.eq_trans (Std.OrientedCmp.eq_symm hk) hl
            rw [this] at hgt
            cases hgt
          simp [hl, hk]
        · simp [hl]

/-- After an update the key has the new value and every other key the old one. -/
theorem get?_insert (m : SortedMap κ ν) (j k : κ) (v : ν) :
    (m.insert k v).get? j = if compare j k = .eq then some v else m.get? j :=
  findEntry_insertEntry j k v m.entries

@[simp] theorem get?_insert_self (m : SortedMap κ ν) (k : κ) (v : ν) :
    (m.insert k v).get? k = some v := by
  rw [get?_insert, if_pos Std.ReflCmp.compare_self]

theorem get?_insert_of_ne [Std.LawfulEqOrd κ] (m : SortedMap κ ν) {j k : κ} (v : ν)
    (h : j ≠ k) : (m.insert k v).get? j = m.get? j := by
  rw [get?_insert, if_neg fun hc => h (Std.compare_eq_iff_eq.1 hc)]

theorem findEntry_eraseEntry (j k : κ) (entries : List (κ × ν)) :
    findEntry j (eraseEntry k entries) =
      if compare j k = .eq then none else findEntry j entries := by
  induction entries with
  | nil => simp [eraseEntry, findEntry]
  | cons d rest ih =>
      obtain ⟨l, w⟩ := d
      by_cases hk : compare k l = .eq
      · have : compare j l = compare j k := (Std.TransCmp.congr_right hk).symm
        simp only [eraseEntry, List.filter_cons, hk, bne_self_eq_false, Bool.false_eq_true,
          if_false]
        rw [show List.filter (fun e => compare k e.1 != .eq) rest = eraseEntry k rest from rfl, ih]
        simp only [findEntry, this]
        split <;> rfl
      · have hk' : (compare k l != .eq) = true := by simpa using hk
        simp only [eraseEntry, List.filter_cons, hk', if_true, findEntry]
        rw [show List.filter (fun e => compare k e.1 != .eq) rest = eraseEntry k rest from rfl, ih]
        by_cases hl : compare j l = .eq
        · have hj : ¬ compare j k = .eq := by
            intro hj
            exact hk (Std.TransCmp.eq_trans (Std.OrientedCmp.eq_symm hj) hl)
          simp [hl, hj]
        · simp [hl]

/-- After an erasure the key is gone and every other key as it was. -/
theorem get?_erase (m : SortedMap κ ν) (j k : κ) :
    (m.erase k).get? j = if compare j k = .eq then none else m.get? j :=
  findEntry_eraseEntry j k m.entries

end Lookups

section Sizes

variable {κ ν : Type} [Ord κ]

theorem length_insertEntry {k : κ} (v : ν) {entries : List (κ × ν)}
    (h : findEntry k entries = none) : (insertEntry k v entries).length = entries.length + 1 := by
  induction entries with
  | nil => rfl
  | cons d rest ih =>
      obtain ⟨l, w⟩ := d
      simp only [findEntry] at h
      simp only [insertEntry]
      split at h
      · cases h
      next hne =>
        split
        · rfl
        next heq => exact absurd heq hne
        · simp [ih h]

variable [Std.TransOrd κ]

/-- A key that was not there adds one to the size. -/
theorem size_insert {m : SortedMap κ ν} {k : κ} (v : ν) (h : m.contains k = false) :
    (m.insert k v).size = m.size + 1 := by
  refine length_insertEntry v ?_
  simpa [contains, get?] using h

theorem length_eraseEntry {k : κ} {entries : List (κ × ν)}
    (hs : entries.Pairwise fun a b => compare a.1 b.1 = .lt)
    (h : (findEntry k entries).isSome) : (eraseEntry k entries).length + 1 = entries.length := by
  induction entries with
  | nil => cases h
  | cons d rest ih =>
      obtain ⟨l, w⟩ := d
      obtain ⟨hlt, hrest⟩ := List.pairwise_cons.1 hs
      simp only [findEntry] at h
      by_cases hk : compare k l = .eq
      · -- the keys behind are greater than this one
        have hkeep : eraseEntry k rest = rest := by
          refine List.filter_eq_self.2 fun e he => ?_
          have hke : compare k e.1 = .lt := Std.TransCmp.lt_of_eq_of_lt hk (hlt e he)
          simp [hke]
        have hout : eraseEntry k ((l, w) :: rest) = eraseEntry k rest := by
          simp [eraseEntry, hk]
        rw [hout, hkeep]
        rfl
      · rw [if_neg hk] at h
        have hin : eraseEntry k ((l, w) :: rest) = (l, w) :: eraseEntry k rest := by
          simp [eraseEntry, hk]
        rw [hin, List.length_cons, List.length_cons, ih hrest h]

/-- A key that was there takes one off the size. -/
theorem size_erase {m : SortedMap κ ν} {k : κ} (h : m.contains k = true) :
    (m.erase k).size + 1 = m.size :=
  length_eraseEntry m.sorted h

end Sizes

section Building

variable {κ ν : Type} [Ord κ] [Std.TransOrd κ]

theorem insertEntry_of_lt {k : κ} (v : ν) {entries : List (κ × ν)}
    (h : ∀ e ∈ entries, compare e.1 k = .lt) : insertEntry k v entries = entries ++ [(k, v)] := by
  induction entries with
  | nil => rfl
  | cons d rest ih =>
      have hgt : compare k d.1 = .gt := Std.OrientedCmp.gt_iff_lt.2 (h d List.mem_cons_self)
      simp only [insertEntry, hgt, List.cons_append]
      rw [ih fun e he => h e (List.mem_cons_of_mem _ he)]

/-- Entries behind those of a map are put at its end. -/
theorem entries_foldl_insert {later : List (κ × ν)} :
    ∀ {m : SortedMap κ ν}, ((m.entries ++ later).Pairwise fun a b => compare a.1 b.1 = .lt) →
      (later.foldl (fun m e => m.insert e.1 e.2) m).entries = m.entries ++ later := by
  induction later with
  | nil => simp
  | cons e later ih =>
      intro m h
      have hlt : ∀ d ∈ m.entries, compare d.1 e.1 = .lt := fun d hd =>
        (List.pairwise_append.1 h).2.2 d hd e List.mem_cons_self
      have hentries : (m.insert e.1 e.2).entries = m.entries ++ [e] := insertEntry_of_lt e.2 hlt
      rw [List.foldl_cons, ih (by rw [hentries]; simpa using h), hentries]
      simp

/-- A map is the map of its entries. -/
theorem ofList_entries (m : SortedMap κ ν) : ofList m.entries = m := by
  have h : (ofList m.entries).entries = m.entries :=
    entries_foldl_insert (m := empty) m.sorted
  cases hm : ofList m.entries with
  | mk entries sorted =>
      rw [hm] at h
      cases m
      cases h
      rfl

end Building

end SortedMap
end ReplicatedLog
