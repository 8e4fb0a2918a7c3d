import ReplicatedLog.Text.Parts
import Mathlib.Data.List.Forall2

/-!
# Parts and cases of texts

What taking a text apart at a separator comes to, and what it means that two texts are the same but
for the case of their ASCII letters.

* `partsAt_append`: the first part of a text ends at its first separator;
* `length_partsAt`: there is one part more than there are separators;
* `lines_append`: the first line of a text ends at its first line feed;
* `partsAt_eq_three_iff`: the three parts of a text are those that make it up;
* `SameUpToCase`: the characters of two texts are the same one by one, but for the case of an ASCII
  letter, and `sameUpToCase_iff`: then the texts are the same in lower case.
-/

namespace ReplicatedLog
namespace Text

section Parts

variable {separator : Char}

/-- What comes before the first separator is the first part. -/
theorem partsAt_append {part : List Char} (h : separator ∉ part) (rest : List Char) :
    partsAt separator (part ++ separator :: rest) = part :: partsAt separator rest := by
  induction part with
  | nil => simp [partsAt]
  | cons c part ih =>
      rw [List.mem_cons, not_or] at h
      obtain ⟨hc, hpart⟩ := h
      simp [partsAt, Ne.symm hc, ih hpart]

/-- A text without separators is its only part. -/
theorem partsAt_of_not_mem {part : List Char} (h : separator ∉ part) :
    partsAt separator part = [part] := by
  induction part with
  | nil => rfl
  | cons c part ih =>
      rw [List.mem_cons, not_or] at h
      obtain ⟨hc, hpart⟩ := h
      simp [partsAt, Ne.symm hc, ih hpart]

/-- A text is its only part, or goes on behind its first separator. -/
theorem not_mem_or_split (separator : Char) (text : List Char) :
    separator ∉ text ∨ ∃ part rest, separator ∉ part ∧ text = part ++ separator :: rest := by
  induction text with
  | nil => exact Or.inl List.not_mem_nil
  | cons c text ih =>
      by_cases hc : c = separator
      · exact Or.inr ⟨[], text, List.not_mem_nil, by simp [hc]⟩
      · rcases ih with hnone | ⟨part, rest, hpart, rfl⟩
        · exact Or.inl (by simp [Ne.symm hc, hnone])
        · exact Or.inr ⟨c :: part, rest, by simp [Ne.symm hc, hpart], rfl⟩

/-- There is one part more than there are separators. -/
theorem length_partsAt (separator : Char) (text : List Char) :
    (partsAt separator text).length = text.count separator + 1 := by
  induction text with
  | nil => rfl
  | cons c text ih =>
      rw [partsAt]
      split
      next hc => simp [hc, ih]
      next hc =>
        rw [List.count_cons_of_ne hc, ← ih]
        cases hparts : partsAt separator text with
        | nil =>
            rw [hparts] at ih
            cases ih
        | cons part parts => rfl

/-- The three parts of a text make it up, with a separator between each two of them. -/
theorem partsAt_eq_three_iff {text a b c : List Char} :
    partsAt separator text = [a, b, c] ↔
      text = a ++ separator :: (b ++ separator :: c) ∧
        separator ∉ a ∧ separator ∉ b ∧ separator ∉ c := by
  constructor
  · intro h
    rcases not_mem_or_split separator text with hnone | ⟨a', rest, ha, rfl⟩
    · rw [partsAt_of_not_mem hnone] at h
      cases h
    rw [partsAt_append ha, List.cons.injEq] at h
    obtain ⟨rfl, h⟩ := h
    rcases not_mem_or_split separator rest with hnone | ⟨b', rest, hb, rfl⟩
    · rw [partsAt_of_not_mem hnone] at h
      cases h
    rw [partsAt_append hb, List.cons.injEq] at h
    obtain ⟨rfl, h⟩ := h
    rcases not_mem_or_split separator rest with hc | ⟨c', rest, hc, rfl⟩
    · rw [partsAt_of_not_mem hc, List.cons.injEq] at h
      obtain ⟨rfl, -⟩ := h
      exact ⟨rfl, ha, hb, hc⟩
    · rw [partsAt_append hc, List.cons.injEq] at h
      have hlength := length_partsAt separator rest
      rw [h.2] at hlength
      cases hlength
  · rintro ⟨rfl, ha, hb, hc⟩
    rw [partsAt_append ha, partsAt_append hb, partsAt_of_not_mem hc]

/-- A text has at least one part. -/
theorem partsAt_ne_nil (separator : Char) (text : List Char) : partsAt separator text ≠ [] := by
  intro hnone
  have hlength := length_partsAt separator text
  rw [hnone] at hlength
  cases hlength

/-- The first line of a text ends at its first line feed. -/
theorem lines_append {line : List Char} (h : '\n' ∉ line) (rest : List Char) :
    lines (line ++ '\n' :: rest) = withoutReturn line :: lines rest := by
  obtain ⟨next, parts, hparts⟩ := List.exists_cons_of_ne_nil (partsAt_ne_nil '\n' rest)
  rw [lines, lines, partsAt_append h, hparts, linesOfParts]

example : lines "a\r\n\nb\r".toList = ["a".toList, [], "b\r".toList] := by decide

theorem withoutReturn_of_not_mem {line : List Char} (h : '\r' ∉ line) : withoutReturn line = line :=
  if_neg fun hlast => h (List.mem_of_getLast? hlast)

/-- What is left of a line without a carriage return at its end, or the line had none there. -/
theorem withoutReturn_cases (line : List Char) :
    withoutReturn line = line ∨ withoutReturn line ++ ['\r'] = line := by
  unfold withoutReturn
  split
  next hlast => exact Or.inr (List.dropLast_append_getLast? _ hlast)
  next => exact Or.inl rfl

end Parts

section Cases

/-- The first character is the small ASCII letter to the capital that the second one is. -/
def SmallOf (c d : Char) : Prop :=
  'A' ≤ d ∧ d ≤ 'Z' ∧ c.toNat = d.toNat + 32

/-- Two characters are the same, but for the case of an ASCII letter. -/
def SameLetter (c d : Char) : Prop :=
  c = d ∨ SmallOf c d ∨ SmallOf d c

/-- Two texts are the same, but for the case of their ASCII letters. -/
def SameUpToCase (a b : List Char) : Prop :=
  List.Forall₂ SameLetter a b

theorem toLower_of_capital {c : Char} (h : 'A' ≤ c ∧ c ≤ 'Z') :
    c.toLower.toNat = c.toNat + 32 := by
  have hle : c.val.toNat ≤ 90 := UInt32.le_iff_toNat_le.1 h.2
  have hcapital : c.val ≥ 'A'.val ∧ c.val ≤ 'Z'.val := h
  have hlower : c.toLower.val = c.val + 32 := congrArg Char.val (dif_pos hcapital)
  change c.toLower.val.toNat = c.val.toNat + 32
  rw [hlower, UInt32.toNat_add]
  exact Nat.mod_eq_of_lt (by
    change c.val.toNat + 32 < 2 ^ 32
    omega)

theorem toLower_of_not_capital {c : Char} (h : ¬ ('A' ≤ c ∧ c ≤ 'Z')) : c.toLower = c := by
  exact dif_neg h

/-- A small letter is no capital. -/
theorem SmallOf.not_capital {c d : Char} (h : SmallOf c d) : ¬ ('A' ≤ c ∧ c ≤ 'Z') := by
  rintro ⟨-, hle⟩
  have hlow : 65 ≤ d.toNat := UInt32.le_iff_toNat_le.1 h.1
  have hhigh : c.toNat ≤ 90 := UInt32.le_iff_toNat_le.1 hle
  have hsmall := h.2.2
  omega

theorem SmallOf.toLower {c d : Char} (h : SmallOf c d) : d.toLower = c.toLower := by
  rw [toLower_of_not_capital h.not_capital]
  exact Char.toNat_inj.1 ((toLower_of_capital ⟨h.1, h.2.1⟩).trans h.2.2.symm)

theorem sameLetter_iff {c d : Char} : SameLetter c d ↔ c.toLower = d.toLower := by
  constructor
  · rintro (rfl | h | h)
    · rfl
    · exact h.toLower.symm
    · exact h.toLower
  · intro h
    by_cases hc : 'A' ≤ c ∧ c ≤ 'Z'
    · have hlow := toLower_of_capital hc
      by_cases hd : 'A' ≤ d ∧ d ≤ 'Z'
      · have hlow' := toLower_of_capital hd
        rw [h, hlow'] at hlow
        exact Or.inl (Char.toNat_inj.1 (by omega))
      · rw [h, toLower_of_not_capital hd] at hlow
        exact Or.inr (Or.inr ⟨hc.1, hc.2, hlow⟩)
    · rw [toLower_of_not_capital hc] at h
      subst h
      by_cases hd : 'A' ≤ d ∧ d ≤ 'Z'
      · exact Or.inr (Or.inl ⟨hd.1, hd.2, toLower_of_capital hd⟩)
      · exact Or.inl (toLower_of_not_capital hd)

/-- Two texts are the same but for the case of their ASCII letters if they are the same in lower
case. -/
theorem sameUpToCase_iff {a b : List Char} : SameUpToCase a b ↔ lowerCase a = lowerCase b := by
  rw [SameUpToCase, lowerCase, lowerCase, ← List.forall₂_eq_eq_eq, List.forall₂_map_left_iff,
    List.forall₂_map_right_iff]
  constructor
  · exact fun h => h.imp fun _ _ => sameLetter_iff.1
  · exact fun h => h.imp fun _ _ => sameLetter_iff.2

end Cases

end Text
end ReplicatedLog
