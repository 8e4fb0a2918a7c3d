import ReplicatedLog.Data.SortedMap

/-!
# Many updates of a map

* `get?_eq_some_iff`: looking a key up and finding it among the entries is the same;
* `get?_erase_self` and `get?_erase_of_ne`: what erasing a key does to every look-up;
* `contains_insert_of_contains`: setting a key that is there adds none;
* `get?_foldl_insert_of_mem`, `get?_foldl_insert_of_forall_ne` and `keys_foldl_insert`: what
  setting several keys one after the other does to a map.
-/

namespace ReplicatedLog
namespace SortedMap

variable {κ ν : Type} [Ord κ] [Std.LawfulEqOrd κ] {k : κ} {v : ν}

theorem not_lt_self (k : κ) : compare k k ≠ .lt := by
  rw [show compare k k = .eq from Std.ReflCmp.compare_self]
  nofun

/-- A key that comes before all of them is none of them. -/
theorem not_mem_of_forall_lt {entries : List (κ × ν)} (h : ∀ e ∈ entries, compare k e.1 = .lt) :
    k ∉ entries.map Prod.fst := by
  rintro hk
  obtain ⟨e, he, rfl⟩ := List.mem_map.1 hk
  exact not_lt_self _ (h e he)

section Members

theorem findEntry_eq_some_iff {entries : List (κ × ν)}
    (hs : entries.Pairwise fun a b => compare a.1 b.1 = .lt) :
    findEntry k entries = some v ↔ (k, v) ∈ entries := by
  induction entries with
  | nil => simp [findEntry]
  | cons d rest ih =>
      obtain ⟨l, w⟩ := d
      obtain ⟨hlt, hrest⟩ := List.pairwise_cons.1 hs
      rw [findEntry, List.mem_cons]
      by_cases hk : compare k l = .eq
      · have hkl : k = l := Std.compare_eq_iff_eq.1 hk
        subst hkl
        rw [if_pos hk]
        constructor
        · intro h
          cases h
          exact Or.inl rfl
        · rintro (h | h)
          · cases h
            rfl
          · have hself := hlt _ h
            rw [hk] at hself
            cases hself
      · rw [if_neg hk, ih hrest]
        constructor
        · exact Or.inr
        · rintro (h | h)
          · cases h
            exact absurd Std.ReflCmp.compare_self hk
          · exact h

theorem get?_eq_some_iff {m : SortedMap κ ν} : m.get? k = some v ↔ (k, v) ∈ m.entries :=
  findEntry_eq_some_iff m.sorted

theorem mem_keys_iff {m : SortedMap κ ν} : k ∈ m.keys ↔ ∃ v, m.get? k = some v := by
  simp only [keys, List.mem_map, get?_eq_some_iff]
  constructor
  · rintro ⟨⟨l, v⟩, hmem, rfl⟩
    exact ⟨v, hmem⟩
  · rintro ⟨v, hmem⟩
    exact ⟨(k, v), hmem, rfl⟩

end Members

section Updates

variable [Std.TransOrd κ] {m : SortedMap κ ν} {later : List (κ × ν)}

theorem get?_erase_self (m : SortedMap κ ν) (k : κ) : (m.erase k).get? k = none := by
  rw [get?_erase, if_pos Std.ReflCmp.compare_self]

theorem get?_erase_of_ne (m : SortedMap κ ν) {j k : κ} (h : j ≠ k) :
    (m.erase k).get? j = m.get? j := by
  rw [get?_erase, if_neg fun hc => h (Std.compare_eq_iff_eq.1 hc)]

theorem contains_insert_of_contains (v : ν) (h : m.contains k = true) :
    (m.insert k v).contains = m.contains := by
  funext j
  by_cases hj : j = k
  · subst hj
    rw [h, contains, get?_insert_self]
    rfl
  · rw [contains, contains, get?_insert_of_ne _ _ hj]

theorem keys_insertEntry (v : ν) {entries : List (κ × ν)}
    (hs : entries.Pairwise fun a b => compare a.1 b.1 = .lt) (hk : k ∈ entries.map Prod.fst) :
    (insertEntry k v entries).map Prod.fst = entries.map Prod.fst := by
  induction entries with
  | nil => cases hk
  | cons d rest ih =>
      obtain ⟨l, w⟩ := d
      obtain ⟨hlt, hrest⟩ := List.pairwise_cons.1 hs
      rw [List.map_cons, List.mem_cons] at hk
      rw [insertEntry]
      split
      next hbefore =>
        -- the key would come before all of those that are there
        exfalso
        rcases hk with rfl | hk
        · exact not_lt_self _ hbefore
        · exact not_mem_of_forall_lt (fun e he => Std.TransCmp.lt_trans hbefore (hlt e he)) hk
      next hsame =>
        rw [Std.compare_eq_iff_eq.1 hsame]
        rfl
      next hbehind =>
        rcases hk with rfl | hk
        · exact absurd (Std.OrientedCmp.gt_iff_lt.1 hbehind) (not_lt_self _)
        · rw [List.map_cons, ih hrest hk, List.map_cons]

theorem keys_foldl_insert (h : ∀ e ∈ later, e.1 ∈ m.keys) :
    (later.foldl (fun m e => m.insert e.1 e.2) m).keys = m.keys := by
  induction later generalizing m with
  | nil => rfl
  | cons e later ih =>
      have hkeys : (m.insert e.1 e.2).keys = m.keys :=
        keys_insertEntry e.2 m.sorted (h e List.mem_cons_self)
      rw [List.foldl_cons, ih fun d hd => hkeys ▸ h d (List.mem_cons_of_mem _ hd), hkeys]

theorem get?_foldl_insert_of_forall_ne (h : ∀ e ∈ later, e.1 ≠ k) :
    (later.foldl (fun m e => m.insert e.1 e.2) m).get? k = m.get? k := by
  induction later generalizing m with
  | nil => rfl
  | cons e later ih =>
      rw [List.foldl_cons, ih fun d hd => h d (List.mem_cons_of_mem _ hd)]
      exact get?_insert_of_ne m e.2 (h e List.mem_cons_self).symm

theorem get?_foldl_insert_of_mem (hd : later.Pairwise fun a b => a.1 ≠ b.1)
    (h : (k, v) ∈ later) :
    (later.foldl (fun m e => m.insert e.1 e.2) m).get? k = some v := by
  induction later generalizing m with
  | nil => cases h
  | cons e later ih =>
      obtain ⟨hne, hlater⟩ := List.pairwise_cons.1 hd
      rw [List.foldl_cons]
      rcases List.mem_cons.1 h with rfl | h
      · rw [get?_foldl_insert_of_forall_ne fun d hmem => (hne d hmem).symm, get?_insert_self]
      · exact ih hlater h

end Updates

end SortedMap
end ReplicatedLog
