import ReplicatedLog.Codec.Binary
import ReplicatedLog.Proofs.Text.Utf8
import Mathlib.Algebra.Group.Nat.Defs

/-!
# The binary format says where it ends

What is written in the compact binary format is read back as it was, whatever stands
behind it, and nothing is read from a part of it that has been cut off too early.

* `Delimits` says both of a parser and the bytes of a value, and `Delimits.bind`: it
  holds of two parsers one after the other if it holds of each;
* `readVarint_delimits`, `readText_delimits` and `readEntries_delimits`: numbers, texts
  and maps;
* `readId_delimits`, `readCommand_delimits` and the like: what travels through the log;
* `codecs_delimit`: the codecs of all these.
-/

namespace ReplicatedLog
namespace Binary

section Parsers

variable {α β : Type} {p : Parser α} {f : α → Parser β} {bytes bytes' : Bytes} {a : α} {b : β}

/-- The parser takes the bytes off the front, whatever follows, and gives the value; on a part of
them that is cut off too early it comes to an unexpected end. -/
structure Delimits (p : Parser α) (bytes : Bytes) (a : α) : Prop where
  reads : ∀ rest, p (bytes ++ rest) = .ok (a, rest)
  cutOff : ∀ {short missing}, short ++ missing = bytes → missing ≠ [] →
    p short = .error .unexpectedEnd

theorem bind_ok {rest : Bytes} (h : p bytes = .ok (a, rest)) : (p >>= f) bytes = f a rest := by
  simp [bind, StateT.bind, h, Except.bind]

theorem bind_error {fault : Fault} (h : p bytes = .error fault) :
    (p >>= f) bytes = .error fault := by
  simp [bind, StateT.bind, h, Except.bind]

theorem Delimits.whole (h : Delimits p bytes a) : p bytes = .ok (a, []) := by
  have hreads := h.reads []
  rwa [List.append_nil] at hreads

/-- Without bytes nothing can be cut off. -/
theorem Delimits.nothing (h : ∀ rest, p rest = .ok (a, rest)) : Delimits p [] a := by
  refine ⟨h, fun {short missing} happ hne => ?_⟩
  exact absurd (List.append_eq_nil_iff.1 happ).2 hne

theorem Delimits.pure (a : α) : Delimits (Pure.pure a) [] a :=
  .nothing fun _ => rfl

/-- One after the other: the bytes are cut off in the first part, between the two, or in the
second one. -/
theorem Delimits.bind (h : Delimits p bytes a) (h' : Delimits (f a) bytes' b) :
    Delimits (p >>= f) (bytes ++ bytes') b := by
  refine ⟨fun rest => ?_, fun {short missing} happ hne => ?_⟩
  · rw [List.append_assoc, bind_ok (h.reads _), h'.reads rest]
  · rcases List.append_eq_append_iff.1 happ with ⟨left, hbytes, hmissing⟩ | ⟨read, hshort, hbytes'⟩
    · by_cases hleft : left = []
      · subst hleft
        rw [List.append_nil] at hbytes
        rw [← hbytes, bind_ok h.whole]
        exact h'.cutOff (List.nil_append bytes') (by rwa [← show missing = bytes' from hmissing])
      · exact bind_error (h.cutOff hbytes.symm hleft)
    · rw [hshort, bind_ok (h.reads read)]
      exact h'.cutOff hbytes'.symm hne

/-- A value is made of what has been read. -/
theorem Delimits.map (h : Delimits p bytes a) {f : α → Parser β}
    (hf : ∀ rest, f a rest = .ok (b, rest)) : Delimits (p >>= f) bytes b := by
  have hboth := h.bind (.nothing hf)
  rwa [List.append_nil] at hboth

end Parsers

section Numbers

variable {last : Nat}

/-- A number of seven bits takes one byte. -/
theorem readVarint_byte {places n : Nat} (hn : n < 128) (hlast : places = 0 → n ≤ last) :
    Delimits (readVarint last (places + 1)) [n.toUInt8] n := by
  have hb : n.toUInt8.toNat = n := Utf8.toNat_toUInt8 (by omega)
  refine ⟨fun rest => ?_, fun {short missing} happ hne => ?_⟩
  · have hfits : ¬ (places = 0 ∧ last < n) := fun ⟨hp, hlt⟩ =>
      absurd (hlast hp) (Nat.not_le.2 hlt)
    rw [List.singleton_append, readVarint]
    dsimp only
    rw [hb, if_pos hn, if_neg hfits]
  · rcases List.append_eq_singleton_iff.1 happ with ⟨hshort, -⟩ | ⟨-, hmissing⟩
    · rw [hshort]
      rfl
    · exact absurd hmissing hne

/-- A byte with its high bit set is followed by what is above its seven bits. -/
theorem readVarint_more {places n : Nat} {b : UInt8} {bytes : Bytes} (hb : 128 ≤ b.toNat)
    (h : Delimits (readVarint last places) bytes n) :
    Delimits (readVarint last (places + 1)) (b :: bytes) (b.toNat - 128 + 128 * n) := by
  have hhigh : ¬ b.toNat < 128 := Nat.not_lt.2 hb
  refine ⟨fun rest => ?_, fun {short missing} happ hne => ?_⟩
  · rw [List.cons_append, readVarint]
    dsimp only
    rw [if_neg hhigh, h.reads rest]
  · cases short with
    | nil => rfl
    | cons c short =>
        obtain ⟨rfl, hshort⟩ := List.cons_eq_cons.1 happ
        rw [readVarint]
        dsimp only
        rw [if_neg hhigh, h.cutOff hshort hne]

/-- A number is read back in so many places, if it does not take more of them and the last one does
not exceed its limit; the writer may have had room for more. -/
theorem readVarint_delimits (hlast : last < 128) (places : Nat) :
    ∀ {width n : Nat}, places < width → n < (last + 1) * 128 ^ places →
      Delimits (readVarint last (places + 1)) (varintWithin width n) n := by
  induction places with
  | zero =>
      intro width n hwidth hn
      obtain ⟨width, rfl⟩ := Nat.exists_eq_succ_of_ne_zero (Nat.ne_of_gt hwidth)
      have hsmall : n < 128 := by omega
      rw [varintWithin, if_pos hsmall]
      exact readVarint_byte hsmall fun _ => by omega
  | succ places ih =>
      intro width n hwidth hn
      obtain ⟨width, rfl⟩ := Nat.exists_eq_succ_of_ne_zero (Nat.ne_of_gt (Nat.zero_lt_of_lt hwidth))
      rw [varintWithin]
      by_cases hsmall : n < 128
      · rw [if_pos hsmall]
        exact readVarint_byte hsmall nofun
      · have hb : (n % 128 + 128).toUInt8.toNat = n % 128 + 128 := Utf8.toNat_toUInt8 (by omega)
        have habove : n / 128 < (last + 1) * 128 ^ places := by
          rw [Nat.div_lt_iff_lt_mul (by decide), Nat.mul_assoc]
          exact hn
        have hmore := readVarint_more (b := (n % 128 + 128).toUInt8) (by omega)
          (ih (Nat.lt_of_succ_lt_succ hwidth) habove)
        have hvalue : (n % 128 + 128).toUInt8.toNat - 128 + 128 * (n / 128) = n := by omega
        rw [if_neg hsmall]
        rwa [hvalue] at hmore

theorem readWord64_delimits {n : Nat} (h : n ≤ Text.maxWord64) :
    Delimits readWord64 (varint n) n :=
  readVarint_delimits (by decide) 9 (by decide) (Nat.lt_succ_of_le h)

theorem readWord32_delimits {n : Nat} (h : n ≤ Text.maxWord32) :
    Delimits readWord32 (varint n) n :=
  readVarint_delimits (by decide) 4 (by decide) (Nat.lt_succ_of_le h)

end Numbers

section Texts

/-- A text can be written: its length in bytes is a word, as that of every text in memory. -/
def Fits (s : String) : Prop :=
  (Bytes.ofString s).length ≤ Text.maxWord64

instance (s : String) : Decidable (Fits s) :=
  inferInstanceAs (Decidable (_ ≤ _))

theorem take_delimits (bytes : Bytes) : Delimits (take bytes.length) bytes bytes := by
  refine ⟨fun rest => ?_, fun {short missing} happ hne => ?_⟩
  · simp [take]
  · have hlt : short.length < bytes.length := by
      rw [← happ, List.length_append]
      exact Nat.lt_add_of_pos_right (List.length_pos_iff.2 hne)
    rw [take, if_pos hlt]

/-- A text is read back. -/
theorem readText_delimits {s : String} (h : Fits s) : Delimits readText (text s) s := by
  refine (readWord64_delimits h).bind ((take_delimits _).map fun rest => ?_)
  rw [Bytes.toString?_ofString]
  rfl

end Texts

section Maps

variable {σ : Type}

/-- The entries of a map are read one after the other. -/
theorem readEntries_delimits (insert : σ → String → String → σ)
    {pairs : List (String × String)} (m : σ) (h : ∀ e ∈ pairs, Fits e.1 ∧ Fits e.2) :
    Delimits (readEntries insert pairs.length m) (pairs.flatMap fun (k, v) => text k ++ text v)
      (pairs.foldl (fun m e => insert m e.1 e.2) m) := by
  induction pairs generalizing m with
  | nil => exact .pure m
  | cons e pairs ih =>
      obtain ⟨hkey, hvalue⟩ := h e List.mem_cons_self
      have hrest := ih (insert m e.1 e.2) fun d hd => h d (List.mem_cons_of_mem e hd)
      rw [List.flatMap_cons, List.append_assoc]
      exact (readText_delimits hkey).bind ((readText_delimits hvalue).bind hrest)

end Maps

section Choices

/-- An alternative is read back from its number. -/
theorem readChoice_delimits {α : Type} {known : List α} {i : Nat} {a : α}
    (h : known[i]? = some a) (hi : i ≤ Text.maxWord32) :
    Delimits (readChoice known) (varint i) a := by
  refine (readWord32_delimits hi).map fun rest => ?_
  rw [h]
  rfl

end Choices

end Binary

section Sizes

/-- A command can be written: its texts can, and the number of its properties is a word. -/
structure Command.Fits (c : Command) : Prop where
  statement : Binary.Fits c.statement
  count : c.properties.size ≤ Text.maxWord64
  properties : ∀ e ∈ c.properties.entries, Binary.Fits e.1 ∧ Binary.Fits e.2

/-- A partition can be written: its topic can, and its index is a word of 32 bits. -/
structure Partition.Fits (p : Partition) : Prop where
  topic : Binary.Fits p.topic
  index : p.index ≤ Text.maxWord32

/-- A position can be written: its partition can, and its offset is a word of 64 bits. -/
structure Position.Fits (p : Position) : Prop where
  partition : p.partition.Fits
  offset : p.offset ≤ Text.maxWord64

end Sizes

namespace BinaryForm

open Binary

section Forms

theorem readKind_delimits (k : Kind) : Delimits readKind (ofKind k) k :=
  readChoice_delimits (by cases k <;> rfl) (by cases k <;> decide)

theorem readAction_delimits (a : Action) : Delimits readAction (ofAction a) a :=
  readChoice_delimits (by cases a <;> rfl) (by cases a <;> decide)

/-- An id is read back. -/
theorem readId_delimits {id : CommandId} (h : Fits id.entity) :
    Delimits readId (ofId id) id := by
  rw [ofId, ofParts, List.append_assoc]
  refine (readKind_delimits id.kind).bind ((readText_delimits h).bind
    ((readAction_delimits id.action).map fun rest => ?_))
  simp only [CommandId.make, id.isEntity, dite_true]
  rfl

/-- Properties are read back. -/
theorem readProperties_delimits {properties : Properties}
    (h : ∀ e ∈ properties.entries, Fits e.1 ∧ Fits e.2) :
    Delimits (readEntries SortedMap.insert properties.entries.length ∅)
      (properties.entries.flatMap fun (k, v) => text k ++ text v) properties := by
  have hread := readEntries_delimits SortedMap.insert (∅ : Properties) h
  rwa [show properties.entries.foldl (fun m e => m.insert e.1 e.2) ∅ = properties from
    SortedMap.ofList_entries properties] at hread

/-- A command is read back. -/
theorem readCommand_delimits {c : Command} (h : c.Fits) :
    Delimits readCommand (ofCommand c) c := by
  refine (readText_delimits h.statement).bind ((readWord64_delimits h.count).bind
    ((readProperties_delimits h.properties).map fun rest => ?_))
  rfl

/-- A partition is read back. -/
theorem readPartition_delimits {p : Partition} (h : p.Fits) :
    Delimits readPartition (ofPartition p) p :=
  (readText_delimits h.topic).bind ((readWord32_delimits h.index).map fun _ => rfl)

/-- A position is read back. -/
theorem readPosition_delimits {p : Position} (h : p.Fits) :
    Delimits readPosition (ofPosition p) p := by
  rw [ofPosition, List.append_assoc]
  exact (readText_delimits h.partition.topic).bind ((readWord32_delimits h.partition.index).bind
    ((readWord64_delimits h.offset).map fun _ => rfl))

end Forms

end BinaryForm

section Codecs

variable {α : Type} {c : Codec α}

/-- The codec writes the value in bytes that say where they end: it reads the value back whatever
stands behind them, and wherever they are cut off it finds that there should be more. -/
def Codec.Delimits (c : Codec α) (a : α) : Prop :=
  ∃ bytes, c.encode a = .ok bytes ∧ (∀ rest, c.decode (bytes ++ rest) = .ok a) ∧
    ∀ short, short <+: bytes → short ≠ bytes →
      c.decode short = .error ⟨.decoding, Binary.Fault.unexpectedEnd.message⟩

theorem Codec.binary_delimits {write : α → Bytes} {read : Binary.Parser α} {a : α}
    (h : Binary.Delimits read (write a) a) : (Codec.binary write read).Delimits a := by
  refine ⟨write a, rfl, fun rest => ?_, fun short hshort hne => ?_⟩
  · change (Binary.decode read (write a ++ rest)).mapError CodecError.ofBinary = _
    rw [Binary.decode, h.reads rest]
    rfl
  · obtain ⟨missing, happ⟩ := hshort
    have hmissing : missing ≠ [] := by
      rintro rfl
      exact hne (by rwa [List.append_nil] at happ)
    change (Binary.decode read short).mapError CodecError.ofBinary = _
    rw [Binary.decode, h.cutOff happ hmissing]
    rfl

namespace BinaryForm

/-- Whatever travels through the log is read back from its binary form, whatever stands behind it,
and is never taken for another value when that form is cut off. -/
theorem codecs_delimit :
    (∀ id : CommandId, Binary.Fits id.entity → idCodec.Delimits id) ∧
      (∀ c : Command, c.Fits → commandCodec.Delimits c) ∧
      (∀ s, Binary.Fits s → textCodec.Delimits s) ∧
      (∀ n ≤ Text.maxWord64, wordCodec.Delimits n) ∧
      (∀ p : Partition, p.Fits → partitionCodec.Delimits p) ∧
      ∀ p : Position, p.Fits → positionCodec.Delimits p :=
  ⟨fun _ h => Codec.binary_delimits (readId_delimits h),
    fun _ h => Codec.binary_delimits (readCommand_delimits h),
    fun _ h => Codec.binary_delimits (Binary.readText_delimits h),
    fun _ h => Codec.binary_delimits (Binary.readWord64_delimits h),
    fun _ h => Codec.binary_delimits (readPartition_delimits h),
    fun _ h => Codec.binary_delimits (readPosition_delimits h)⟩

/-- A command with a character of two bytes and one property. -/
def sampleCommand : Command :=
  { statement := "é", properties := SortedMap.empty.insert "k" "" }

theorem sampleCommand_fits : sampleCommand.Fits :=
  ⟨by decide +kernel, by decide +kernel, by decide +kernel⟩

/-- The position with the largest numbers. -/
def samplePosition : Position :=
  ⟨"commands", 4294967295, 18446744073709551615⟩

theorem samplePosition_fits : samplePosition.Fits :=
  ⟨⟨by decide +kernel, by decide +kernel⟩, by decide +kernel⟩

/-- In the samples the command takes seven bytes, and the numbers of the position fifteen. -/
theorem codecs_delimit_sample :
    ofCommand sampleCommand = [2, 0xC3, 0xA9, 1, 1, 0x6B, 0] ∧
      (ofPosition samplePosition).length = 24 ∧
      sampleCommand.Fits ∧ commandCodec.Delimits sampleCommand ∧
      samplePosition.Fits ∧ positionCodec.Delimits samplePosition := by
  obtain ⟨-, hcommand, -, -, -, hposition⟩ := codecs_delimit
  exact ⟨by decide +kernel, by decide +kernel, sampleCommand_fits,
    hcommand sampleCommand sampleCommand_fits, samplePosition_fits,
    hposition samplePosition samplePosition_fits⟩

end BinaryForm

end Codecs

end ReplicatedLog
