import ReplicatedLog.Proofs.Json.RoundTrip

/-!
# JSON numbers there and back

Whole numbers are written with their decimal digits and read back, and so are the
values that hold some: the partitions and positions of a log.

* `decimal_large`: the digits of a number are those of a tenth of it, and one more;
* `gather_decimal`: digits add up to the number that they were written for;
* `naturalUpTo_reads`: a number within the bound is read back before bytes with which
  it does not go on;
* `readPartition_reads` and `readPosition_reads`: partitions and positions.
-/

namespace ReplicatedLog
namespace Json

open Ascii

section Digits

/-- The decimal digits of a number. -/
def decimal (n : Nat) : Bytes :=
  Bytes.ofString (toString n)

theorem encodeChar_digitChar :
    ∀ d < 10, Utf8.encodeChar (Nat.digitChar d) = [digit d] := by
  decide

theorem isDigit_digit : ∀ d < 10, isDigit (digit d) = true := by
  decide

theorem digitValue_digit : ∀ d < 10, digitValue (digit d) = d := by
  decide

theorem digit_ne_zero : ∀ d < 10, digit d = zero → d = 0 := by
  decide

theorem decimal_eq (n : Nat) : decimal n = Utf8.encode (Nat.toDigits 10 n) := by
  rw [decimal, Bytes.ofString, Nat.toString_eq_repr, Nat.repr_eq_ofList_toDigits,
    String.toList_ofList]

theorem decimal_small {n : Nat} (h : n < 10) : decimal n = [digit n] := by
  rw [decimal_eq, Nat.toDigits_of_lt_base h, Utf8.encode, List.flatMap_singleton,
    encodeChar_digitChar n h]

/-- The digits of a number are those of a tenth of it, and one more. -/
theorem decimal_large {n : Nat} (h : 10 ≤ n) :
    decimal n = decimal (n / 10) ++ [digit (n % 10)] := by
  rw [decimal_eq, decimal_eq, Nat.toDigits_of_base_le (by decide) h, Utf8.encode,
    List.flatMap_append, List.flatMap_singleton,
    encodeChar_digitChar (n % 10) (Nat.mod_lt n (by decide))]
  rfl

/-- What holds of one digit, and of a number if it does of a tenth of it, holds of every number. -/
theorem decimal_induction {P : Nat → Bytes → Prop} (small : ∀ n < 10, P n [digit n])
    (large : ∀ n, 10 ≤ n → P (n / 10) (decimal (n / 10)) →
      P n (decimal (n / 10) ++ [digit (n % 10)])) (n : Nat) : P n (decimal n) := by
  induction n using Nat.strongRecOn with
  | ind n ih =>
      by_cases h : n < 10
      · rw [decimal_small h]
        exact small n h
      · have hle : 10 ≤ n := Nat.le_of_not_lt h
        rw [decimal_large hle]
        exact large n hle (ih (n / 10) (Nat.div_lt_self (by omega) (by decide)))

theorem isDigit_of_mem_decimal (n : Nat) : ∀ b ∈ decimal n, isDigit b = true := by
  refine decimal_induction (P := fun _ bytes => ∀ b ∈ bytes, isDigit b = true) ?_ ?_ n
  · intro n hn b hb
    rw [List.mem_singleton.1 hb]
    exact isDigit_digit n hn
  · intro n hn ih b hb
    rcases List.mem_append.1 hb with hb | hb
    · exact ih b hb
    · rw [List.mem_singleton.1 hb]
      exact isDigit_digit _ (Nat.mod_lt n (by decide))

/-- Only zero begins with a zero. -/
theorem decimal_head (n : Nat) :
    ∃ b bs, decimal n = b :: bs ∧ isDigit b = true ∧ (b = zero → bs = []) := by
  have hhead : ∃ b bs, decimal n = b :: bs ∧ (b = zero → n = 0) := by
    refine decimal_induction (P := fun n bytes => ∃ b bs, bytes = b :: bs ∧ (b = zero → n = 0))
      ?_ ?_ n
    · exact fun n hn => ⟨_, [], rfl, digit_ne_zero n hn⟩
    · rintro n hn ⟨b, bs, hd, hz⟩
      refine ⟨b, bs ++ [digit (n % 10)], by rw [hd]; rfl, fun hb => ?_⟩
      have := hz hb
      omega
  obtain ⟨b, bs, hd, hz⟩ := hhead
  refine ⟨b, bs, hd, isDigit_of_mem_decimal n b (hd ▸ List.mem_cons_self), fun hb => ?_⟩
  rw [hz hb, decimal_small (by decide)] at hd
  exact (List.cons_eq_cons.1 hd).2.symm

theorem gather_append {d : UInt8} {v : Nat} (h : 10 * v + digitValue d ≤ Text.maxWord64)
    {ds : Bytes} : ∀ {s : Nat}, gather s ds = (v, []) →
      gather s (ds ++ [d]) = (10 * v + digitValue d, []) := by
  induction ds with
  | nil =>
      intro s hs
      cases hs
      simp [gather, h]
  | cons c ds ih =>
      intro s hs
      simp only [gather] at hs
      split at hs
      next hle =>
        rw [List.cons_append, gather, if_pos hle, ih hs]
      next => cases hs

/-- Digits add up to the number that they were written for. -/
theorem gather_decimal {n : Nat} (h : n ≤ Text.maxWord64) : gather 0 (decimal n) = (n, []) := by
  revert h
  refine decimal_induction
    (P := fun n bytes => n ≤ Text.maxWord64 → gather 0 bytes = (n, [])) ?_ ?_ n
  · intro n hn hle
    simp [gather, digitValue_digit n hn, hle]
  · intro n hn ih hle
    have hlast := digitValue_digit (n % 10) (Nat.mod_lt n (by decide))
    have hsum : 10 * (n / 10) + n % 10 = n := Nat.div_add_mod n 10
    have hmore := gather_append (d := digit (n % 10)) (by rw [hlast, hsum]; exact hle)
      (ih (Nat.le_trans (Nat.div_le_self n 10) hle))
    rwa [hlast, hsum] at hmore

end Digits

section Numbers

theorem digits_reads {ds rest : Bytes} (hds : ∀ b ∈ ds, isDigit b = true) (hrest : Breaks rest) :
    digits (ds ++ rest) = .ok (ds, rest) := by
  have htake : rest.takeWhile isDigit = [] ∧ rest.dropWhile isDigit = rest := by
    cases rest with
    | nil => exact ⟨rfl, rfl⟩
    | cons b rest =>
        have hb := (hrest b rfl).1
        simp [hb]
  rw [digits, List.takeWhile_append_of_pos hds, List.dropWhile_append_of_pos hds, htake.1,
    htake.2, List.append_nil]

/-- The digits of a number are read as what a whole number with that sign is. -/
theorem number_reads_as {isNegative : Bool} {n : Nat} {x : Number} (h : n ≤ Text.maxWord64)
    (hwhole : wholeNumber isNegative n = return x) :
    ReadsBefore (number isNegative) (decimal n) x := by
  intro rest hrest
  obtain ⟨b, bs, hd, hb, hz⟩ := decimal_head n
  have hfront : front (decimal n ++ rest) = .ok (some b, decimal n ++ rest) := by
    rw [hd]
    rfl
  -- a zero in front would have to be alone
  have hlength : b = zero → (decimal n).length = 1 := fun hzero => by
    rw [hd, hz hzero]
    rfl
  have hnext : front rest = .ok (rest.head?, rest) := rfl
  unfold number
  rw [bind_ok hfront]
  simp only [hb, Bool.not_true, Bool.false_eq_true, if_false]
  rw [bind_ok (digits_reads (isDigit_of_mem_decimal n) hrest)]
  simp only [gather_decimal h, Bool.and_eq_true, decide_eq_true_eq, List.isEmpty_nil, if_true]
  rw [if_neg fun hflaw => hflaw.2 (hlength hflaw.1), bind_ok hnext, hwhole]
  cases rest with
  | nil => rfl
  | cons c rest =>
      obtain ⟨-, hdot, hlower, hupper⟩ := hrest c rfl
      have hnumber : (return x : Parser Number) (c :: rest) = .ok (x, c :: rest) := rfl
      simpa [hdot, hlower, hupper] using hnumber

/-- A whole number is read back before bytes with which it does not go on. -/
theorem number_reads {n : Nat} (h : n ≤ Text.maxWord64) :
    ReadsBefore (number false) (decimal n) (.whole n) :=
  number_reads_as h rfl

/-- A digit is neither white space nor a minus sign. -/
theorem isSpace_of_isDigit {b : UInt8} : isDigit b = true → isSpace b = false ∧ b ≠ minus :=
  forall_byte (P := fun b => isDigit b = true → isSpace b = false ∧ b ≠ minus)
    (by decide +kernel) b

/-- A number within the bound is read back before bytes with which it does not go on. -/
theorem naturalUpTo_reads {n bound : Nat} (wanted : String) (h : n ≤ bound)
    (hbound : bound ≤ Text.maxWord64) :
    ReadsBefore (naturalUpTo bound wanted) (decimal n) n := by
  intro rest hrest
  obtain ⟨b, bs, hd, hb, -⟩ := decimal_head n
  obtain ⟨hspace, hminus⟩ := isSpace_of_isDigit hb
  have hpeek : peekOr .endInValue (decimal n ++ rest) = .ok (b, decimal n ++ rest) := by
    rw [hd, List.cons_append]
    exact peekOr_cons hspace _ _
  rw [naturalUpTo, bind_ok hpeek, if_neg hminus, if_pos hb,
    bind_ok (number_reads (Nat.le_trans h hbound) rest hrest), acceptNatural, if_pos h]
  rfl

theorem word64_reads {n : Nat} (h : n ≤ Text.maxWord64) : ReadsBefore word64 (decimal n) n :=
  naturalUpTo_reads "u64" h (Nat.le_refl _)

theorem word32_reads {n : Nat} (h : n ≤ Text.maxWord32) : ReadsBefore word32 (decimal n) n :=
  naturalUpTo_reads "u32" h (by decide)

end Numbers

end Json

namespace JsonForm

open Json

section Places

/-- A partition is read back. -/
theorem readPartition_reads {p : Partition} (h : p.index ≤ Text.maxWord32) :
    Reads partitionLayout.read (ofPartition p).render p := by
  have hfields : MembersRead partitionLayout.member
      [("topic", .string p.topic), ("partition", .number (.whole p.index))] {}
      { topic := some p.topic, partition := some p.index } := by
    refine .cons (t := { topic := some p.topic }) (member_reads rfl rfl ?_)
      (.cons (member_reads rfl rfl ?_) (.nil _))
    · exact (string_reads p.topic).before.map _
    · exact (word32_reads h).map _
  exact layout_reads hfields rfl

/-- A position is read back. -/
theorem readPosition_reads {p : Position} (h : p.index ≤ Text.maxWord32)
    (h' : p.offset ≤ Text.maxWord64) : Reads positionLayout.read (ofPosition p).render p := by
  have hfields : MembersRead positionLayout.member
      [("topic", .string p.topic), ("partition", .number (.whole p.index)),
        ("offset", .number (.whole p.offset))] {}
      { topic := some p.topic, partition := some p.index, offset := some p.offset } := by
    refine .cons (t := { topic := some p.topic }) (member_reads rfl rfl ?_)
      (.cons (t := { topic := some p.topic, partition := some p.index }) (member_reads rfl rfl ?_)
        (.cons (member_reads rfl rfl ?_) (.nil _)))
    · exact (string_reads p.topic).before.map _
    · exact (word32_reads h).map _
    · exact (word64_reads h').map _
  exact layout_reads hfields rfl

end Places

end JsonForm
end ReplicatedLog
