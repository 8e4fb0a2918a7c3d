import ReplicatedLog.Log.Reader

/-!
# The steps of a scan

What the decoding of an entry, of entries in a row and a scan of partitions come to at their
next step, said once for any log and any schema.

* `decodeEntry_of_ok`, `decodeEntry_of_error`: a record is at the place of its entry and
  holds what the schema decodes, and an entry fails with what the schema tells;
* `decodeEntries_cons_of_ok`, `decodeEntries_cons_of_error`: entries in a row are decoded
  one by one, up to the first that fails;
* `scan_of_none`, `scan_of_garbled`, `scan_of_some`: a partition is not there, or cannot be
  decoded, or comes before what is found later.
-/

namespace ReplicatedLog
namespace Reader

variable {κ ν : Type} {schema : Schema κ ν} {log : Log} {p : Partition} {err : LogError}
  {es : List Entry} {rs : List (Record κ ν)}

section Decoding

variable {offset : Nat} {e : Entry} {key : κ} {r : Record κ ν}

theorem decodeEntry_none (hk : schema.key.decode e.key = .ok key) (hv : e.value = none) :
    decodeEntry schema p offset e = .ok ⟨p, offset, key, none⟩ := by
  unfold decodeEntry
  rw [hk, hv]
  rfl

/-- A record whose key and value are there is decoded by its value. -/
theorem decodeEntry_some {v : Bytes} (hk : schema.key.decode e.key = .ok key)
    (hv : e.value = some v) :
    decodeEntry schema p offset e =
      ((schema.value.decode v).mapError LogError.codec).map fun value =>
        ⟨p, offset, key, some value⟩ := by
  unfold decodeEntry
  rw [hk, hv]
  change ((schema.value.decode v).mapError LogError.codec).bind _ = _
  cases schema.value.decode v <;> rfl

theorem decodeEntry_garbled {cause : CodecError} (hk : schema.key.decode e.key = .error cause) :
    decodeEntry schema p offset e = .error (.codec cause) := by
  unfold decodeEntry
  rw [hk]
  rfl

/-- A record is at the place of its entry, and holds what the schema decodes. -/
theorem decodeEntry_of_ok (h : decodeEntry schema p offset e = .ok r) :
    r.partition = p ∧ r.offset = offset ∧ schema.key.decode e.key = .ok r.key ∧
      ((e.value = none ∧ r.value = none) ∨
        ∃ v value, e.value = some v ∧ schema.value.decode v = .ok value ∧
          r.value = some value) := by
  cases hk : schema.key.decode e.key with
  | error cause =>
      rw [decodeEntry_garbled hk] at h
      cases h
  | ok key =>
      cases hv : e.value with
      | none =>
          rw [decodeEntry_none hk hv] at h
          cases h
          exact ⟨rfl, rfl, rfl, Or.inl ⟨rfl, rfl⟩⟩
      | some v =>
          rw [decodeEntry_some hk hv] at h
          cases hd : schema.value.decode v with
          | error cause =>
              rw [hd] at h
              cases h
          | ok value =>
              rw [hd] at h
              cases h
              exact ⟨rfl, rfl, rfl, Or.inr ⟨v, value, rfl, hd, rfl⟩⟩

/-- An entry fails with what the schema tells. -/
theorem decodeEntry_of_error (h : decodeEntry schema p offset e = .error err) :
    ∃ cause, err = .codec cause := by
  cases hk : schema.key.decode e.key with
  | error cause =>
      rw [decodeEntry_garbled hk] at h
      cases h
      exact ⟨cause, rfl⟩
  | ok key =>
      cases hv : e.value with
      | none =>
          rw [decodeEntry_none hk hv] at h
          cases h
      | some v =>
          rw [decodeEntry_some hk hv] at h
          cases hd : schema.value.decode v with
          | error cause =>
              rw [hd] at h
              cases h
              exact ⟨cause, rfl⟩
          | ok value =>
              rw [hd] at h
              cases h

/-- The first of the entries has been decoded, and those that follow have. -/
theorem decodeEntries_cons_of_ok (h : decodeEntries schema p offset (e :: es) = .ok rs) :
    ∃ r rest, rs = r :: rest ∧ decodeEntry schema p offset e = .ok r ∧
      decodeEntries schema p (offset + 1) es = .ok rest := by
  unfold decodeEntries at h
  cases hr : decodeEntry schema p offset e with
  | error err =>
      rw [hr] at h
      cases h
  | ok r =>
      rw [hr] at h
      cases hrest : decodeEntries schema p (offset + 1) es with
      | error err =>
          rw [hrest] at h
          cases h
      | ok rest =>
          rw [hrest] at h
          cases h
          exact ⟨r, rest, rfl, rfl, rfl⟩

/-- The first of the entries has failed, or one of those that follow. -/
theorem decodeEntries_cons_of_error (h : decodeEntries schema p offset (e :: es) = .error err) :
    decodeEntry schema p offset e = .error err ∨
      decodeEntries schema p (offset + 1) es = .error err := by
  unfold decodeEntries at h
  cases hr : decodeEntry schema p offset e with
  | error err' =>
      rw [hr] at h
      cases h
      exact Or.inl rfl
  | ok r =>
      rw [hr] at h
      cases hrest : decodeEntries schema p (offset + 1) es with
      | error err' =>
          rw [hrest] at h
          cases h
          exact Or.inr rfl
      | ok rest =>
          rw [hrest] at h
          cases h

end Decoding

section Scanning

variable {room position : Nat} {rest : List (Partition × Nat)}

theorem scan_zero (ps : List (Partition × Nat)) : scan schema log 0 ps = .ok ⟨[], []⟩ := by
  cases ps <;> rfl

/-- A partition that is not there is skipped, if its topic is not there yet. -/
theorem scan_of_none (hroom : room ≠ 0) (hread : log.read p position room = none) :
    scan schema log room ((p, position) :: rest) =
      if log.partitionCount p.topic = none then scan schema log room rest
      else .error (.unknownPartition p) := by
  simp only [scan, if_neg hroom, hread, Option.isNone_iff_eq_none]

/-- A scan ends at what cannot be decoded. -/
theorem scan_of_garbled (hroom : room ≠ 0) (hread : log.read p position room = some es)
    (hdecode : decodeEntries schema p position es = .error err) :
    scan schema log room ((p, position) :: rest) = .error err := by
  simp only [scan, if_neg hroom, hread, hdecode, bind, Except.bind]

/-- What is read in a partition comes before what is found later. -/
theorem scan_of_some (hroom : room ≠ 0) (hread : log.read p position room = some es)
    (hdecode : decodeEntries schema p position es = .ok rs) :
    scan schema log room ((p, position) :: rest) =
      (scan schema log (room - es.length) rest).map fun later =>
        ⟨rs ++ later.records,
          if es.isEmpty then later.moved else (p, position + es.length) :: later.moved⟩ := by
  simp only [scan, if_neg hroom, hread, hdecode, bind, Except.bind, pure, Except.pure]
  cases scan schema log (room - es.length) rest <;> rfl

end Scanning

end Reader
end ReplicatedLog
