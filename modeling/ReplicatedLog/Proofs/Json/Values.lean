import ReplicatedLog.Proofs.Json.Layouts
import ReplicatedLog.Proofs.Json.Numbers
import Mathlib.Data.String.Basic

/-!
# JSON values there and back

A value without real numbers is written as one line, and read back.

* `Value.Fits`: the values in question, with a bound on how many lists and objects are open at once;
* `listOf_reads` and `object_reads`: the items of lists and the members of objects;
* `Value.Fits.reads`: values are read back, before bytes with which no number goes on;
* `Spelled`: bytes that are the UTF-8 form of characters, none of which is a control character, and
  `Value.Fits.spelled`: the text of a value is of that kind.
-/

namespace ReplicatedLog
namespace Json

open Ascii

/-- A value without real numbers, as a document can hold it: whole numbers take 64 bits, the members
of objects are sorted by their keys, and at most `depth` lists and objects are open at once. -/
inductive Value.Fits : (depth : Nat) → Value → Prop
  | null {depth : Nat} : Value.Fits depth .null
  | truth {depth : Nat} (b : Bool) : Value.Fits depth (.truth b)
  | whole {depth n : Nat} (le : n ≤ Text.maxWord64) : Value.Fits depth (.number (.whole n))
  | negative {depth n : Nat} (pos : 0 < n) (le : n ≤ 9223372036854775808) :
      Value.Fits depth (.number (.negative n))
  | string {depth : Nat} (s : String) : Value.Fits depth (.string s)
  | list {depth : Nat} {vs : List Value} (items : ∀ v ∈ vs, Value.Fits depth v) :
      Value.Fits (depth + 1) (.list vs)
  | object {depth : Nat} {ms : List (String × Value)}
      (sorted : ms.Pairwise fun m m' => m.1 < m'.1) (members : ∀ m ∈ ms, Value.Fits depth m.2) :
      Value.Fits (depth + 1) (.object ms)

section Lists

variable {α : Type} {p : Parser α} {write : α → Value} {as : List α}

theorem listGoesOn_end (first : Bool) (rest : Bytes) :
    listGoesOn first (closeBracket :: rest) = .ok (false, closeBracket :: rest) := by
  rw [listGoesOn, bind_ok (peekOr_cons rfl _ _), if_pos rfl]
  rfl

/-- No number goes on where the next item or the end of the list stands. -/
theorem breaks_items (vs : List Value) (rest : Bytes) :
    Breaks ((vs.flatMap fun v => comma :: v.render) ++ closeBracket :: rest) := by
  cases vs with
  | nil =>
      rintro b ⟨⟩
      decide
  | cons v vs => exact breaks_comma _

/-- What is left of a list after its first items is read to its end. -/
theorem items_reads_more
    (h : ∀ a ∈ as, Begins (write a).render ∧ ReadsBefore p (write a).render a) :
    ∀ {fuel : Nat} {acc : List α}, as.length < fuel → ∀ rest,
      items p fuel false acc (((as.map write).flatMap fun v => comma :: v.render) ++
        closeBracket :: rest) = .ok (acc.reverse ++ as, closeBracket :: rest) := by
  induction as with
  | nil =>
      intro fuel acc hfuel rest
      obtain ⟨fuel, rfl⟩ := Nat.exists_eq_succ_of_ne_zero (Nat.ne_of_gt hfuel)
      rw [List.map_nil, List.flatMap_nil, List.nil_append, items,
        bind_ok (listGoesOn_end false rest), if_neg (by decide), List.append_nil]
      rfl
  | cons a as ih =>
      intro fuel acc hfuel rest
      obtain ⟨fuel, rfl⟩ := Nat.exists_eq_succ_of_ne_zero (Nat.ne_of_gt (Nat.zero_lt_of_lt hfuel))
      simp only [List.length_cons, Nat.succ_lt_succ_iff] at hfuel
      obtain ⟨hbegins, hreads⟩ := h a List.mem_cons_self
      rw [List.map_cons, List.flatMap_cons, List.cons_append, List.cons_append, List.append_assoc,
        items, bind_ok (listGoesOn_comma (hbegins.append _)), if_pos rfl,
        bind_ok (hreads _ (breaks_items _ rest)),
        ih (fun b hb => h b (List.mem_cons_of_mem a hb)) hfuel rest]
      simp

/-- The items of a list are read to its end. -/
theorem items_reads (h : ∀ a ∈ as, Begins (write a).render ∧ ReadsBefore p (write a).render a)
    {fuel : Nat} (hfuel : as.length < fuel) (rest : Bytes) :
    items p fuel true [] (renderItems (as.map write) ++ closeBracket :: rest) =
      .ok (as, closeBracket :: rest) := by
  obtain ⟨fuel, rfl⟩ := Nat.exists_eq_succ_of_ne_zero (Nat.ne_of_gt (Nat.zero_lt_of_lt hfuel))
  cases as with
  | nil =>
      rw [List.map_nil, renderItems, List.nil_append, items, bind_ok (listGoesOn_end true rest),
        if_neg (by decide)]
      rfl
  | cons a as =>
      simp only [List.length_cons, Nat.succ_lt_succ_iff] at hfuel
      obtain ⟨hbegins, hreads⟩ := h a List.mem_cons_self
      rw [List.map_cons, renderItems_cons, List.append_assoc, items,
        bind_ok (listGoesOn_first (hbegins.append _)), if_pos rfl,
        bind_ok (hreads _ (breaks_items _ rest)),
        items_reads_more (fun b hb => h b (List.mem_cons_of_mem a hb)) hfuel rest]
      rfl

theorem length_le_length_renderItems {vs : List Value} (h : ∀ v ∈ vs, Begins v.render) :
    vs.length ≤ (renderItems vs).length := by
  cases vs with
  | nil => exact Nat.zero_le _
  | cons v vs =>
      have hmore : vs.length ≤ (vs.flatMap fun v => comma :: v.render).length :=
        length_le_length_flatMap fun _ _ => List.cons_ne_nil _ _
      obtain ⟨b, rest, hb, -⟩ := h v List.mem_cons_self
      rw [renderItems_cons, List.length_append, List.length_cons, hb, List.length_cons]
      omega

/-- A list is read back, if its items are. -/
theorem listOf_reads (h : ∀ a ∈ as, Begins (write a).render ∧ ReadsBefore p (write a).render a) :
    Reads (listOf p) (Value.list (as.map write)).render as := by
  intro rest
  have hlength : (as.map write).length ≤ (renderItems (as.map write)).length :=
    length_le_length_renderItems (List.forall_mem_map.2 fun a ha => (h a ha).1)
  have hfuel : as.length < (renderItems (as.map write) ++ closeBracket :: rest).length + 1 := by
    rw [List.length_map] at hlength
    rw [List.length_append]
    omega
  rw [Value.render, List.cons_append, List.cons_append, List.append_assoc, List.singleton_append,
    listOf, bind_ok (peekOr_cons rfl _ _), if_pos rfl, bind_ok (skip_cons _ _), bind_ok (get_ok _),
    bind_ok (items_reads h hfuel rest), bind_ok (endList_cons rest)]
  rfl

end Lists

section Objects

variable {p : Parser Value} {ms : List (String × Value)}

/-- A member whose key is behind all others comes last. -/
theorem insertMember_last {k : String} {v : Value} (h : ∀ m ∈ ms, m.1 < k) :
    insertMember k v ms = ms ++ [(k, v)] := by
  induction ms with
  | nil => rfl
  | cons m ms ih =>
      have hm : m.1 < k := h m List.mem_cons_self
      rw [insertMember, if_neg (lt_asymm hm), if_neg (ne_of_gt hm),
        ih fun m' hm' => h m' (List.mem_cons_of_mem m hm')]
      rfl

/-- Sorted members are read one after the other, and put behind those that are there. -/
theorem members_read (hsorted : ms.Pairwise fun m m' => m.1 < m'.1)
    (h : ∀ m ∈ ms, ReadsBefore p m.2.render m.2) (before : List (String × Value))
    (hbefore : ∀ m ∈ before, ∀ m' ∈ ms, m.1 < m'.1) :
    MembersRead
      (fun k s => do
        colonBefore
        return insertMember k (← p) s) ms before (before ++ ms) := by
  induction ms generalizing before with
  | nil =>
      rw [List.append_nil]
      exact .nil before
  | cons m ms ih =>
      obtain ⟨k, v⟩ := m
      obtain ⟨hfirst, hrest⟩ := List.pairwise_cons.1 hsorted
      have hread : ReadsBefore (do
          colonBefore
          return insertMember k (← p) before) (colon :: v.render) (before ++ [(k, v)]) := by
        rw [← insertMember_last fun m hm => hbefore m hm _ List.mem_cons_self]
        exact colonBefore_reads.bind_before ((h _ List.mem_cons_self).map _)
      have hnext : ∀ m ∈ before ++ [(k, v)], ∀ m' ∈ ms, m.1 < m'.1 := by
        intro m hm m' hm'
        rcases List.mem_append.1 hm with hm | hm
        · exact hbefore m hm m' (List.mem_cons_of_mem _ hm')
        · rw [List.mem_singleton.1 hm]
          exact hfirst m' hm'
      have hlater := ih hrest (fun m hm => h m (List.mem_cons_of_mem _ hm)) _ hnext
      rw [List.append_assoc] at hlater
      exact .cons hread hlater

/-- An object is read back, if its members are. -/
theorem object_reads (hsorted : ms.Pairwise fun m m' => m.1 < m'.1)
    (h : ∀ m ∈ ms, ReadsBefore p m.2.render m.2) :
    Reads (mapOf p (fun ms k v => insertMember k v ms) []) (Value.object ms).render ms :=
  mapOf_reads (members_read hsorted h [] nofun)

end Objects

section Values

theorem keyword_reads (bytes : Bytes) : Reads (keyword bytes) bytes () := by
  induction bytes with
  | nil => exact fun _ => rfl
  | cons b bytes ih =>
      intro rest
      rw [List.cons_append, keyword]
      dsimp only
      rw [if_pos rfl]
      exact ih rest

theorem truth_reads (b : Bool) : Reads truth (Value.truth b).render b := by
  cases b <;> exact fun _ => rfl

theorem render_negative (n : Nat) :
    (Value.number (.negative n)).render = minus :: decimal n := by
  have htext : (Number.negative n).text.toList = '-' :: (toString n).toList := by
    rw [Number.text, String.toList_append]
    rfl
  rw [Value.render, Bytes.ofString, htext]
  rfl

/-- A value begins with neither white space nor the end of a list. -/
theorem Value.Fits.begins {depth : Nat} {v : Value} (h : v.Fits depth) : Begins v.render := by
  cases h with
  | null => exact ⟨_, _, rfl, by decide, by decide⟩
  | truth b => cases b <;> exact ⟨_, _, rfl, by decide, by decide⟩
  | @whole _ n le =>
      obtain ⟨b, bs, hd, hb, -⟩ := decimal_head n
      refine ⟨b, bs, hd, (isSpace_of_isDigit hb).1, ?_⟩
      rintro rfl
      cases hb
  | @negative _ n pos le => exact ⟨minus, decimal n, render_negative n, by decide, by decide⟩
  | string s => exact begins_string s
  | list items => exact ⟨openBracket, _, rfl, by decide, by decide⟩
  | object sorted members => exact ⟨openBrace, _, rfl, by decide, by decide⟩

/-- A value is read back. -/
theorem Value.Fits.reads {depth : Nat} {v : Value} (h : v.Fits depth) :
    ReadsBefore (Value.readWithin (depth + 1)) v.render v := by
  induction h with
  | null =>
      intro rest _
      have hrender : Value.null.render ++ rest = lowerN :: (Bytes.ofString "ull" ++ rest) := rfl
      rw [hrender, Value.readWithin, bind_ok (peekOr_cons rfl _ _), if_pos rfl,
        bind_ok (skip_cons _ _), restOfNull, bind_ok (keyword_reads _ rest)]
      rfl
  | truth b =>
      intro rest _
      obtain ⟨c, bs, hc, hfirst⟩ : ∃ c bs, (Value.truth b).render = c :: bs ∧
          (c = lowerT ∨ c = lowerF) := by
        cases b
        · exact ⟨_, _, rfl, Or.inr rfl⟩
        · exact ⟨_, _, rfl, Or.inl rfl⟩
      have hpeek : peekOr .endInValue ((Value.truth b).render ++ rest) =
          .ok (c, (Value.truth b).render ++ rest) := by
        rw [hc]
        exact peekOr_cons (by rcases hfirst with rfl | rfl <;> rfl) _ _
      rw [Value.readWithin, bind_ok hpeek, if_neg (by rcases hfirst with rfl | rfl <;> decide),
        if_pos (by rcases hfirst with rfl | rfl <;> rfl)]
      exact (truth_reads b).map Value.truth rest
  | @whole _ n le =>
      intro rest hrest
      obtain ⟨b, bs, hd, hb, -⟩ := decimal_head n
      have hrender : (Value.number (.whole n)).render = decimal n := rfl
      have hpeek : peekOr .endInValue (decimal n ++ rest) = .ok (b, decimal n ++ rest) := by
        rw [hd]
        exact peekOr_cons (isSpace_of_isDigit hb).1 _ _
      have hne : ∀ c, isDigit c = false → b ≠ c := by
        rintro c hc rfl
        rw [hb] at hc
        cases hc
      rw [hrender, Value.readWithin, bind_ok hpeek, if_neg (hne lowerN rfl),
        if_neg (by simp [hne lowerT rfl, hne lowerF rfl]), if_neg (hne minus rfl), if_pos hb]
      exact (number_reads le).map Value.number rest hrest
  | @negative _ n pos le =>
      intro rest hrest
      have hwhole : wholeNumber true n = return Number.negative n := by
        simp [wholeNumber, pos, le]
      have hread := number_reads_as (Nat.le_trans le (by decide)) hwhole rest hrest
      rw [render_negative, List.cons_append, Value.readWithin, bind_ok (peekOr_cons rfl _ _),
        if_neg (by decide), if_neg (by decide), if_pos rfl, bind_ok (skip_cons _ _), bind_ok hread]
      rfl
  | string s =>
      intro rest _
      rw [Value.render, renderString_eq, List.cons_append, Value.readWithin,
        bind_ok (peekOr_cons rfl _ _)]
      iterate 4 rw [if_neg (by decide)]
      rw [if_pos rfl, bind_ok (skip_cons _ _), bind_ok (stringBody_reads s rest)]
      rfl
  | @list depth vs items ih =>
      intro rest _
      have hlist :
          Reads (listOf (Value.readWithin (depth + 1))) (Value.list (vs.map id)).render vs :=
        listOf_reads fun v hv => ⟨(items v hv).begins, ih v hv⟩
      rw [List.map_id] at hlist
      have hpeek : peekOr .endInValue ((Value.list vs).render ++ rest) =
          .ok (openBracket, (Value.list vs).render ++ rest) := peekOr_cons rfl _ _
      rw [Value.readWithin, bind_ok hpeek]
      iterate 5 rw [if_neg (by decide)]
      rw [if_pos rfl, if_neg (Nat.succ_ne_zero depth)]
      exact hlist.map Value.list rest
  | @object depth ms sorted members ih =>
      intro rest _
      have hobject := object_reads sorted ih
      have hpeek : peekOr .endInValue ((Value.object ms).render ++ rest) =
          .ok (openBrace, (Value.object ms).render ++ rest) := peekOr_cons rfl _ _
      rw [Value.readWithin, bind_ok hpeek]
      iterate 6 rw [if_neg (by decide)]
      rw [if_pos rfl, if_neg (Nat.succ_ne_zero depth)]
      exact hobject.map Value.object rest

end Values

section Spelling

/-- The bytes are the UTF-8 form of characters, none of which is a control character. -/
def Spelled (bytes : Bytes) : Prop :=
  ∃ text : List Char, bytes = Utf8.encode text ∧ ∀ c ∈ text, 0x20 ≤ c.toNat

theorem spelled_nil : Spelled [] :=
  ⟨[], rfl, nofun⟩

theorem Spelled.append {bytes bytes' : Bytes} (h : Spelled bytes) (h' : Spelled bytes') :
    Spelled (bytes ++ bytes') := by
  obtain ⟨text, rfl, htext⟩ := h
  obtain ⟨text', rfl, htext'⟩ := h'
  refine ⟨text ++ text', (Utf8.encode_append text text').symm, fun c hc => ?_⟩
  rcases List.mem_append.1 hc with hc | hc
  · exact htext c hc
  · exact htext' c hc

theorem Spelled.cons {b : UInt8} {bytes : Bytes} (hb : Spelled [b]) (h : Spelled bytes) :
    Spelled (b :: bytes) :=
  hb.append h

theorem Spelled.flatMap {α : Type} {f : α → Bytes} {as : List α} (h : ∀ a ∈ as, Spelled (f a)) :
    Spelled (as.flatMap f) := by
  induction as with
  | nil => exact spelled_nil
  | cons a as ih =>
      rw [List.flatMap_cons]
      exact (h a List.mem_cons_self).append (ih fun a' ha' => h a' (List.mem_cons_of_mem a ha'))

theorem spelled_ascii {b : UInt8} (low : 0x20 ≤ b) (high : b < 0x80) : Spelled [b] := by
  have hall : ∀ n < 0x80, 0x20 ≤ n →
      Utf8.encode [Char.ofNat n] = [UInt8.ofNat n] ∧ 0x20 ≤ (Char.ofNat n).toNat := by
    decide +kernel
  obtain ⟨hencode, hle⟩ := hall b.toNat (UInt8.lt_iff_toNat_lt.1 high) (UInt8.le_iff_toNat_le.1 low)
  rw [UInt8.ofNat_toNat] at hencode
  refine ⟨[Char.ofNat b.toNat], hencode.symm, fun c hc => ?_⟩
  rw [List.mem_singleton.1 hc]
  exact hle

theorem spelled_of_ascii {bytes : Bytes} (h : ∀ b ∈ bytes, 0x20 ≤ b ∧ b < 0x80) :
    Spelled bytes := by
  induction bytes with
  | nil => exact spelled_nil
  | cons b bytes ih =>
      obtain ⟨low, high⟩ := h b List.mem_cons_self
      exact .cons (spelled_ascii low high) (ih fun b' hb' => h b' (List.mem_cons_of_mem b hb'))

theorem escapeByte_of_le {b : UInt8} : 0x80 ≤ b → escapeByte b = [b] :=
  forall_byte (P := fun b => 0x80 ≤ b → escapeByte b = [b]) (by decide +kernel) b

/-- Bytes beyond ASCII are written as they are. -/
theorem escaped_of_le {bytes : Bytes} (h : ∀ b ∈ bytes, 0x80 ≤ b) :
    bytes.flatMap escapeByte = bytes := by
  induction bytes with
  | nil => rfl
  | cons b bytes ih =>
      rw [List.flatMap_cons, escapeByte_of_le (h b List.mem_cons_self),
        ih fun b' hb' => h b' (List.mem_cons_of_mem b hb')]
      rfl

/-- What is written for an ASCII byte can be seen. -/
theorem escapeByte_ascii {b : UInt8} : b < 0x80 → ∀ x ∈ escapeByte b, 0x20 ≤ x ∧ x < 0x80 :=
  forall_byte (P := fun b => b < 0x80 → ∀ x ∈ escapeByte b, 0x20 ≤ x ∧ x < 0x80)
    (by decide +kernel) b

/-- What is written for a character has no control characters. -/
theorem spelled_escaped (c : Char) : Spelled ((Utf8.encodeChar c).flatMap escapeByte) := by
  by_cases hc : c.toNat < 0x80
  · have hone : Utf8.encodeChar c = [c.toNat.toUInt8] := if_pos hc
    have hlt : c.toNat.toUInt8 < 0x80 := by
      rw [UInt8.lt_iff_toNat_lt, Utf8.toNat_toUInt8 (by omega)]
      exact hc
    rw [hone, List.flatMap_singleton]
    exact spelled_of_ascii (escapeByte_ascii hlt)
  · have hle : 0x80 ≤ c.toNat := Nat.le_of_not_lt hc
    rw [escaped_of_le fun b => Utf8.le_of_mem_encodeChar hle]
    refine ⟨[c], (List.flatMap_singleton _ _).symm, fun c' hc' => ?_⟩
    rw [List.mem_singleton.1 hc']
    omega

theorem spelled_renderString (s : String) : Spelled (renderString s) := by
  rw [renderString_eq, Bytes.ofString, Utf8.encode, List.flatMap_assoc]
  have hquote : Spelled [quote] := spelled_ascii (by decide) (by decide)
  exact .cons hquote (.append (.flatMap fun c _ => spelled_escaped c) hquote)

theorem spelled_decimal (n : Nat) : Spelled (decimal n) := by
  refine spelled_of_ascii fun b hb => ?_
  have hdigit := isDigit_of_mem_decimal n b hb
  simp only [isDigit, Bool.and_eq_true, decide_eq_true_eq] at hdigit
  exact ⟨UInt8.le_trans (by decide) hdigit.1, UInt8.lt_of_le_of_lt hdigit.2 (by decide)⟩

/-- A first thing and others, with commas between them. -/
theorem Spelled.commas {α : Type} {f : α → Bytes} {a : α} {as : List α}
    (h : ∀ a' ∈ a :: as, Spelled (f a')) : Spelled (f a ++ as.flatMap fun a' => comma :: f a') :=
  (h a List.mem_cons_self).append (.flatMap fun a' ha' =>
    .cons (spelled_ascii (by decide) (by decide)) (h a' (List.mem_cons_of_mem a ha')))

/-- The text of a value has no control characters. -/
theorem Value.Fits.spelled {depth : Nat} {v : Value} (h : v.Fits depth) : Spelled v.render := by
  induction h with
  | null => exact spelled_of_ascii (by decide +kernel)
  | truth b => cases b <;> exact spelled_of_ascii (by decide +kernel)
  | @whole _ n le => exact spelled_decimal n
  | @negative _ n pos le =>
      rw [render_negative]
      exact .cons (spelled_ascii (by decide) (by decide)) (spelled_decimal n)
  | string s => exact spelled_renderString s
  | @list depth vs items ih =>
      rw [Value.render]
      refine .append (.cons (spelled_ascii (by decide) (by decide)) ?_)
        (spelled_ascii (by decide) (by decide))
      cases vs with
      | nil => exact spelled_nil
      | cons v vs =>
          rw [renderItems_cons]
          exact .commas ih
  | @object depth ms sorted members ih =>
      have hmember : ∀ m ∈ ms, Spelled (renderMember m) := fun m hm =>
        (spelled_renderString m.1).append (.cons (spelled_ascii (by decide) (by decide)) (ih m hm))
      rw [Value.render]
      refine .append (.cons (spelled_ascii (by decide) (by decide)) ?_)
        (spelled_ascii (by decide) (by decide))
      cases ms with
      | nil => exact spelled_nil
      | cons m ms =>
          rw [renderMembers_cons]
          exact .commas hmember

end Spelling

end Json
end ReplicatedLog
