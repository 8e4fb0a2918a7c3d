import ReplicatedLog.Text.Blank
import ReplicatedLog.Text.Decimal
import Mathlib.Data.List.DropRight
import Mathlib.Data.Nat.Digits.Defs

/-!
# Numerals

The texts that denote a number, and that exactly these are read.

* `trim_append` and `append_trim`: what is around a text without white space is trimmed, and what is
  trimmed is white space;
* `digitsValue_digitChar`: digits have the value that they have as the digits of a number to base
  ten;
* `Numeral`: digits with at most one plus sign before them and white space around;
* `readNatUpTo_trim_iff`: a trimmed text is read as a number if it is a numeral of this number, and
  the number is within the bound.
-/

namespace ReplicatedLog
namespace Text

section Trimming

/-- A text without white space is not cut into. -/
theorem dropWhile_isBlank_append {core after : List Char} (hcore : ∀ c ∈ core, isBlank c = false)
    (hafter : ∀ c ∈ after, isBlank c = true) :
    ∃ after', (∀ c ∈ after', isBlank c = true) ∧
      (core ++ after).dropWhile isBlank = core ++ after' := by
  cases core with
  | nil =>
      -- nothing stops the trimming before the end of what comes after
      exact ⟨[], nofun, List.dropWhile_eq_nil_iff.2 hafter⟩
  | cons c core =>
      exact ⟨after, hafter, List.dropWhile_cons_of_neg (by simp [hcore c List.mem_cons_self])⟩

/-- Of white space around a text that has none, nothing is left. -/
theorem trim_append {before core after : List Char} (hbefore : ∀ c ∈ before, isBlank c = true)
    (hcore : ∀ c ∈ core, isBlank c = false) (hafter : ∀ c ∈ after, isBlank c = true) :
    trim (before ++ (core ++ after)) = core := by
  obtain ⟨after', hafter', hfront⟩ := dropWhile_isBlank_append hcore hafter
  rw [trim, List.dropWhile_append_of_pos hbefore, hfront, List.reverse_append,
    List.dropWhile_append_of_pos fun c hc => hafter' c (List.mem_reverse.1 hc)]
  have hback : core.reverse.dropWhile isBlank = core.reverse :=
    List.dropWhile_eq_self_iff.2 fun hl =>
      Bool.eq_false_iff.1 (hcore _ (List.mem_reverse.1 (List.getElem_mem hl)))
  rw [hback, List.reverse_reverse]

/-- What is trimmed away is white space. -/
theorem append_trim (text : List Char) :
    ∃ before after, text = before ++ trim text ++ after ∧
      (∀ c ∈ before, isBlank c = true) ∧ ∀ c ∈ after, isBlank c = true := by
  refine ⟨text.takeWhile isBlank, (text.dropWhile isBlank).rtakeWhile isBlank, ?_,
    fun _ => List.mem_takeWhile_imp, fun _ => List.mem_rtakeWhile_imp⟩
  calc text = text.takeWhile isBlank ++ text.dropWhile isBlank :=
        List.takeWhile_append_dropWhile.symm
    _ = text.takeWhile isBlank ++
          ((text.dropWhile isBlank).rdropWhile isBlank ++
            (text.dropWhile isBlank).rtakeWhile isBlank) := by
        rw [List.rdropWhile_append_rtakeWhile]
    _ = _ := (List.append_assoc _ _ _).symm

end Trimming

section Digits

/-- The character of a digit. -/
def digitChar (d : Fin 10) : Char :=
  Nat.digitChar d

theorem isDigit_digitChar : ∀ d, isDigit (digitChar d) = true := by
  decide

theorem isBlank_digitChar : ∀ d, isBlank (digitChar d) = false := by
  decide

theorem digitChar_ne_plus : ∀ d, digitChar d ≠ '+' := by
  decide

/-- The ten digits are all there are. -/
theorem exists_digitChar {c : Char} (h : isDigit c = true) : ∃ d, c = digitChar d := by
  simp only [isDigit, Bool.and_eq_true, decide_eq_true_eq] at h
  obtain ⟨hlow, hhigh⟩ := h
  have hlt : c.toNat - 48 < 10 := by
    have : '9'.toNat = 57 := rfl
    omega
  refine ⟨⟨c.toNat - 48, hlt⟩, Char.toNat_inj.1 ?_⟩
  have : '0'.toNat = 48 := rfl
  rw [digitChar, Nat.toNat_digitChar_of_lt_ten hlt]
  omega

theorem exists_digitChars {text : List Char} (h : ∀ c ∈ text, isDigit c = true) :
    ∃ ds : List (Fin 10), text = ds.map digitChar := by
  induction text with
  | nil => exact ⟨[], rfl⟩
  | cons c text ih =>
      obtain ⟨hc, htext⟩ := List.forall_mem_cons.1 h
      obtain ⟨d, rfl⟩ := exists_digitChar hc
      obtain ⟨ds, rfl⟩ := ih htext
      exact ⟨d :: ds, rfl⟩

/-- The number with the given digits to base ten, the highest first. -/
def valueOf (ds : List (Fin 10)) : Nat :=
  Nat.ofDigits 10 (ds.map Fin.val).reverse

theorem digitsValue_digitChar (ds : List (Fin 10)) :
    digitsValue 0 (ds.map digitChar) = valueOf ds := by
  induction ds using List.reverseRecOn with
  | nil => rfl
  | append_singleton ds d ih =>
      have hd : (digitChar d).toNat - '0'.toNat = d := by
        rw [digitChar, Nat.toNat_digitChar_of_lt_ten d.isLt]
        exact Nat.add_sub_cancel_left 48 d
      rw [digitsValue] at ih ⊢
      rw [List.map_append, List.foldl_append, ih, valueOf, valueOf, List.map_append,
        List.reverse_append]
      simp only [List.map_cons, List.map_nil, List.reverse_singleton, List.singleton_append,
        Nat.ofDigits_cons, List.foldl_cons, List.foldl_nil, hd]
      exact Nat.add_comm _ _

/-- What is read as digits is made up of digits, one at least, and has their value. -/
theorem readDigits_eq_some_iff {text : List Char} {n : Nat} :
    readDigits text = some n ↔
      ∃ ds : List (Fin 10), ds ≠ [] ∧ text = ds.map digitChar ∧ valueOf ds = n := by
  constructor
  · intro h
    unfold readDigits at h
    split at h
    · cases h
    next hdigits =>
      rw [Bool.not_eq_true, Bool.or_eq_false_iff, List.isEmpty_eq_false_iff, Bool.not_eq_false',
        List.all_eq_true] at hdigits
      obtain ⟨hne, hall⟩ := hdigits
      obtain ⟨ds, rfl⟩ := exists_digitChars hall
      exact ⟨ds, List.map_eq_nil_iff.not.1 hne, rfl,
        (digitsValue_digitChar ds).symm.trans (Option.some.inj h)⟩
  · rintro ⟨ds, hne, rfl, rfl⟩
    have hdigits : (ds.map digitChar).all isDigit = true := by
      simp [isDigit_digitChar]
    simp [readDigits, hne, hdigits, digitsValue_digitChar]

end Digits

section Numerals

/-- At most one plus sign, and digits. -/
def signedDigits (isSigned : Bool) (ds : List (Fin 10)) : List Char :=
  (if isSigned then ['+'] else []) ++ ds.map digitChar

theorem isBlank_of_mem_signedDigits {isSigned : Bool} {ds : List (Fin 10)} :
    ∀ c ∈ signedDigits isSigned ds, isBlank c = false := by
  intro c hc
  rcases List.mem_append.1 hc with hsign | hdigits
  · split at hsign
    · rw [List.mem_singleton.1 hsign]
      decide
    · cases hsign
  · obtain ⟨d, -, rfl⟩ := List.mem_map.1 hdigits
    exact isBlank_digitChar d

/-- A sign is looked past, whatever comes after it. -/
theorem readNatUpTo_signedDigits (bound : Nat) (isSigned : Bool) (ds : List (Fin 10)) :
    readNatUpTo bound (signedDigits isSigned ds) =
      (readDigits (ds.map digitChar)).filter (· ≤ bound) := by
  cases isSigned with
  | true => rfl
  | false =>
      cases ds with
      | nil => rfl
      | cons d ds =>
          unfold readNatUpTo
          split
          next rest heq => exact absurd (List.cons.inj heq).1 (digitChar_ne_plus d)
          · rfl

/-- What is read as a number is at most one plus sign, and digits. -/
theorem readNatUpTo_iff {bound n : Nat} {text : List Char} :
    readNatUpTo bound text = some n ↔
      ∃ isSigned ds, ds ≠ [] ∧ text = signedDigits isSigned ds ∧ valueOf ds = n ∧ n ≤ bound := by
  constructor
  · intro h
    unfold readNatUpTo at h
    obtain ⟨hread, hle⟩ := Option.filter_eq_some_iff.1 h
    obtain ⟨ds, hne, hdigits, hvalue⟩ := readDigits_eq_some_iff.1 hread
    have hle : n ≤ bound := of_decide_eq_true hle
    -- what is read as digits is the text behind a plus sign, or all of it
    split at hdigits
    next rest =>
      exact ⟨true, ds, hne, congrArg (List.cons '+') hdigits, hvalue, hle⟩
    next => exact ⟨false, ds, hne, hdigits, hvalue, hle⟩
  · rintro ⟨isSigned, ds, hne, rfl, hvalue, hle⟩
    rw [readNatUpTo_signedDigits]
    exact Option.filter_eq_some_iff.2
      ⟨readDigits_eq_some_iff.2 ⟨ds, hne, rfl, hvalue⟩, decide_eq_true hle⟩

/-- A number as it may be written: digits, the highest first, with at most one plus sign before them
and white space around. -/
structure Numeral where
  before : List Char
  isSigned : Bool
  digits : List (Fin 10)
  after : List Char
  before_isBlank : ∀ c ∈ before, isBlank c = true
  digits_ne_nil : digits ≠ []
  after_isBlank : ∀ c ∈ after, isBlank c = true

/-- The text of a numeral. -/
def Numeral.text (m : Numeral) : List Char :=
  m.before ++ (signedDigits m.isSigned m.digits ++ m.after)

/-- The text is a numeral of the number. -/
def Denotes (text : List Char) (n : Nat) : Prop :=
  ∃ m : Numeral, m.text = text ∧ valueOf m.digits = n

/-- A text without the white space at its ends is read as a number exactly if it is a numeral of
this number, and the number is within the bound. -/
theorem readNatUpTo_trim_iff {bound n : Nat} {text : List Char} :
    readNatUpTo bound (trim text) = some n ↔ Denotes text n ∧ n ≤ bound := by
  rw [readNatUpTo_iff]
  constructor
  · rintro ⟨isSigned, ds, hne, htrim, hvalue, hle⟩
    obtain ⟨before, after, htext, hbefore, hafter⟩ := append_trim text
    refine ⟨⟨⟨before, isSigned, ds, after, hbefore, hne, hafter⟩, ?_, hvalue⟩, hle⟩
    rw [htext, htrim, List.append_assoc]
    rfl
  · rintro ⟨⟨m, rfl, hvalue⟩, hle⟩
    exact ⟨m.isSigned, m.digits, m.digits_ne_nil,
      trim_append m.before_isBlank isBlank_of_mem_signedDigits m.after_isBlank, hvalue, hle⟩

end Numerals

end Text
end ReplicatedLog
