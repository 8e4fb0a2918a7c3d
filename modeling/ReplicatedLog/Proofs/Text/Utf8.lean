import ReplicatedLog.Text.Utf8

/-!
# UTF-8 there and back

Every character can be read from the bytes that are written for it, whatever
follows, and so can every text.

* `head_encodeChar`: reading the front takes exactly the character;
* `decode?_encode` and `decodeLossy_encode`: a text is read back as it was written.
-/

namespace ReplicatedLog

/-- What holds of the bytes below 256 holds of every byte. -/
theorem forall_byte {P : UInt8 → Prop} (h : ∀ n < 256, P (UInt8.ofNat n)) (b : UInt8) : P b := by
  have hb := h b.toNat b.toNat_lt
  rwa [UInt8.ofNat_toNat] at hb

/-- There are no more things than bytes for them, if each has some. -/
theorem length_le_length_flatMap {α : Type} {f : α → Bytes} {as : List α}
    (h : ∀ a ∈ as, f a ≠ []) : as.length ≤ (as.flatMap f).length := by
  induction as with
  | nil => exact Nat.zero_le _
  | cons a as ih =>
      have hfirst := List.length_pos_iff.2 (h a List.mem_cons_self)
      have hrest := ih fun a' ha' => h a' (List.mem_cons_of_mem a ha')
      rw [List.flatMap_cons, List.length_append, List.length_cons]
      omega

namespace Utf8

theorem toNat_toUInt8 {n : Nat} (h : n < 0x100) : n.toUInt8.toNat = n := by
  rw [Nat.toUInt8, UInt8.toNat_ofNat']
  exact Nat.mod_eq_of_lt h

/-- Six bits in a continuation byte. -/
theorem isContinuation_low {n : Nat} :
    isContinuation (0x80 + n % 0x40).toUInt8 = true ∧
      low (0x80 + n % 0x40).toUInt8 = n % 0x40 := by
  have hb : (0x80 + n % 0x40).toUInt8.toNat = 0x80 + n % 0x40 := toNat_toUInt8 (by omega)
  refine ⟨?_, ?_⟩
  · simp only [isContinuation, Bool.and_eq_true, decide_eq_true_eq, UInt8.le_iff_toNat_le, hb]
    exact ⟨Nat.le_add_right _ _, by show _ ≤ 191; omega⟩
  · rw [low, hb]
    omega

variable {n : Nat} {c : Char} (hc : Char.ofNat n = c) (rest : Bytes)

include hc

theorem head_one (h : n < 0x80) : head n.toUInt8 rest = .whole c rest := by
  have hb := toNat_toUInt8 (n := n) (by omega)
  unfold head
  rw [if_pos (by rw [UInt8.lt_iff_toNat_lt, hb]; exact h), hb, hc]

theorem head_two (h : 0x80 ≤ n) (h' : n < 0x800) :
    head (0xC0 + n / 0x40).toUInt8 ((0x80 + n % 0x40).toUInt8 :: rest) = .whole c rest := by
  have hb := toNat_toUInt8 (n := 0xC0 + n / 0x40) (by omega)
  obtain ⟨hcont, hlow⟩ := isContinuation_low (n := n)
  have hnumber : (0xC0 + n / 0x40) % 0x20 * 0x40 + n % 0x40 = n := by omega
  unfold head
  rw [if_neg (by rw [UInt8.lt_iff_toNat_lt, hb]; show ¬ _ < 128; omega), if_pos]
  · simp only [hcont, if_true, hlow, hb, hnumber, hc]
  · simp only [Bool.and_eq_true, decide_eq_true_eq, UInt8.le_iff_toNat_le, hb]
    exact ⟨by show 194 ≤ _; omega, by show _ ≤ 223; omega⟩

theorem head_three (h : 0x800 ≤ n) (h' : n < 0x10000) (hv : n < 0xD800 ∨ 0xDFFF < n) :
    head (0xE0 + n / 0x1000).toUInt8
      ((0x80 + n / 0x40 % 0x40).toUInt8 :: (0x80 + n % 0x40).toUInt8 :: rest) =
        .whole c rest := by
  have hb := toNat_toUInt8 (n := 0xE0 + n / 0x1000) (by omega)
  have hb' := toNat_toUInt8 (n := 0x80 + n / 0x40 % 0x40) (by omega)
  obtain ⟨hcont, hlow⟩ := isContinuation_low (n := n / 0x40)
  obtain ⟨hcont', hlow'⟩ := isContinuation_low (n := n)
  have hnumber : (0xE0 + n / 0x1000) % 0x10 * 0x1000 + n / 0x40 % 0x40 * 0x40 + n % 0x40 = n := by
    omega
  -- the first of the three bytes limits the second, against overlong forms and surrogates
  have hsecond : secondOfThree (0xE0 + n / 0x1000).toUInt8 (0x80 + n / 0x40 % 0x40).toUInt8 =
      true := by
    unfold secondOfThree
    simp only [← UInt8.toNat_inj, hb]
    split
    next heq =>
      have heq : 0xE0 + n / 0x1000 = 224 := heq
      simp only [Bool.and_eq_true, decide_eq_true_eq, UInt8.le_iff_toNat_le, hb']
      exact ⟨by show 160 ≤ _; omega, by show _ ≤ 191; omega⟩
    next =>
      split
      next heq =>
        have heq : 0xE0 + n / 0x1000 = 237 := heq
        simp only [Bool.and_eq_true, decide_eq_true_eq, UInt8.le_iff_toNat_le, hb']
        exact ⟨by show 128 ≤ _; omega, by show _ ≤ 159; omega⟩
      next => exact hcont
  unfold head
  rw [if_neg (by rw [UInt8.lt_iff_toNat_lt, hb]; show ¬ _ < 128; omega), if_neg, if_pos]
  · simp only [hsecond, hcont', if_true, hlow, hlow', hb, hnumber, hc]
  · simp only [Bool.and_eq_true, decide_eq_true_eq, UInt8.le_iff_toNat_le, hb]
    exact ⟨by show 224 ≤ _; omega, by show _ ≤ 239; omega⟩
  · simp only [Bool.and_eq_true, decide_eq_true_eq, UInt8.le_iff_toNat_le, hb]
    rintro ⟨-, hle⟩
    have hle : _ ≤ 223 := hle
    omega

theorem head_four (h : 0x10000 ≤ n) (h' : n < 0x110000) :
    head (0xF0 + n / 0x40000).toUInt8
      ((0x80 + n / 0x1000 % 0x40).toUInt8 :: (0x80 + n / 0x40 % 0x40).toUInt8 ::
        (0x80 + n % 0x40).toUInt8 :: rest) = .whole c rest := by
  have hb := toNat_toUInt8 (n := 0xF0 + n / 0x40000) (by omega)
  have hb' := toNat_toUInt8 (n := 0x80 + n / 0x1000 % 0x40) (by omega)
  obtain ⟨hcont, hlow⟩ := isContinuation_low (n := n / 0x1000)
  obtain ⟨hcont', hlow'⟩ := isContinuation_low (n := n / 0x40)
  obtain ⟨hcont'', hlow''⟩ := isContinuation_low (n := n)
  have hnumber : (0xF0 + n / 0x40000) % 0x08 * 0x40000 + n / 0x1000 % 0x40 * 0x1000 +
      n / 0x40 % 0x40 * 0x40 + n % 0x40 = n := by omega
  have hsecond : secondOfFour (0xF0 + n / 0x40000).toUInt8
      (0x80 + n / 0x1000 % 0x40).toUInt8 = true := by
    unfold secondOfFour
    simp only [← UInt8.toNat_inj, hb]
    split
    next heq =>
      have heq : 0xF0 + n / 0x40000 = 240 := heq
      simp only [Bool.and_eq_true, decide_eq_true_eq, UInt8.le_iff_toNat_le, hb']
      exact ⟨by show 144 ≤ _; omega, by show _ ≤ 191; omega⟩
    next =>
      split
      next heq =>
        have heq : 0xF0 + n / 0x40000 = 244 := heq
        simp only [Bool.and_eq_true, decide_eq_true_eq, UInt8.le_iff_toNat_le, hb']
        exact ⟨by show 128 ≤ _; omega, by show _ ≤ 143; omega⟩
      next => exact hcont
  unfold head
  rw [if_neg (by rw [UInt8.lt_iff_toNat_lt, hb]; show ¬ _ < 128; omega), if_neg, if_neg, if_pos]
  · simp only [hsecond, hcont', hcont'', if_true, hlow, hlow', hlow'', hb, hnumber, hc]
  · simp only [Bool.and_eq_true, decide_eq_true_eq, UInt8.le_iff_toNat_le, hb]
    exact ⟨by show 240 ≤ _; omega, by show _ ≤ 244; omega⟩
  · simp only [Bool.and_eq_true, decide_eq_true_eq, UInt8.le_iff_toNat_le, hb]
    rintro ⟨-, hle⟩
    have hle : _ ≤ 239 := hle
    omega
  · simp only [Bool.and_eq_true, decide_eq_true_eq, UInt8.le_iff_toNat_le, hb]
    rintro ⟨-, hle⟩
    have hle : _ ≤ 223 := hle
    omega

omit hc

/-- Reading the front takes exactly the character that was written. -/
theorem head_encodeChar (c : Char) (rest : Bytes) :
    ∃ b bs, encodeChar c = b :: bs ∧ head b (bs ++ rest) = .whole c rest := by
  have hc := Char.ofNat_toNat c
  have hvalid : c.toNat < 0xD800 ∨ (0xDFFF < c.toNat ∧ c.toNat < 0x110000) := c.valid
  unfold encodeChar
  dsimp only
  split
  next h1 => exact ⟨_, _, rfl, head_one hc rest h1⟩
  next h1 =>
    split
    next h2 => exact ⟨_, _, rfl, head_two hc rest (Nat.le_of_not_lt h1) h2⟩
    next h2 =>
      split
      next h3 => exact ⟨_, _, rfl, head_three hc rest (Nat.le_of_not_lt h2) h3 (by omega)⟩
      next h3 => exact ⟨_, _, rfl, head_four hc rest (Nat.le_of_not_lt h3) (by omega)⟩

theorem le_toUInt8 {n : Nat} (low : 0x80 ≤ n) (high : n < 0x100) : 0x80 ≤ n.toUInt8 := by
  rw [UInt8.le_iff_toNat_le, toNat_toUInt8 high]
  exact low

/-- All bytes of a character beyond ASCII are beyond ASCII. -/
theorem le_of_mem_encodeChar {c : Char} (hc : 0x80 ≤ c.toNat) {b : UInt8}
    (hb : b ∈ encodeChar c) : 0x80 ≤ b := by
  have hvalid : c.toNat < 0xD800 ∨ (0xDFFF < c.toNat ∧ c.toNat < 0x110000) := c.valid
  unfold encodeChar at hb
  dsimp only at hb
  rw [if_neg (Nat.not_lt.2 hc)] at hb
  split at hb
  · simp only [List.mem_cons, List.not_mem_nil, or_false] at hb
    rcases hb with rfl | rfl <;> exact le_toUInt8 (by omega) (by omega)
  · split at hb
    · simp only [List.mem_cons, List.not_mem_nil, or_false] at hb
      rcases hb with rfl | rfl | rfl <;> exact le_toUInt8 (by omega) (by omega)
    · simp only [List.mem_cons, List.not_mem_nil, or_false] at hb
      rcases hb with rfl | rfl | rfl | rfl <;> exact le_toUInt8 (by omega) (by omega)

/-- Every character takes a byte at least. -/
theorem length_le_length_encode (text : List Char) : text.length ≤ (encode text).length := by
  refine length_le_length_flatMap fun c _ => ?_
  obtain ⟨b, bs, hc, -⟩ := head_encodeChar c []
  rw [hc]
  exact List.cons_ne_nil b bs

theorem decodeWithin_encode {fuel : Nat} {text : List Char} (h : text.length ≤ fuel) :
    decodeWithin fuel (encode text) = some text := by
  induction text generalizing fuel with
  | nil => cases fuel <;> rfl
  | cons c text ih =>
      cases fuel with
      | zero => simp at h
      | succ fuel =>
          obtain ⟨b, bs, hc, hhead⟩ := head_encodeChar c (encode text)
          have hsplit : encode (c :: text) = b :: (bs ++ encode text) := by
            simp [encode, hc]
          rw [hsplit]
          simp only [decodeWithin, hhead]
          rw [ih (by simpa using h)]
          rfl

/-- A text is read back as it was written. -/
theorem decode?_encode (text : List Char) : decode? (encode text) = some text :=
  decodeWithin_encode (length_le_length_encode text)

theorem decodeLossyWithin_encode {fuel : Nat} {text : List Char} (h : text.length ≤ fuel) :
    decodeLossyWithin fuel (encode text) = text := by
  induction text generalizing fuel with
  | nil => cases fuel <;> rfl
  | cons c text ih =>
      cases fuel with
      | zero => simp at h
      | succ fuel =>
          obtain ⟨b, bs, hc, hhead⟩ := head_encodeChar c (encode text)
          have hsplit : encode (c :: text) = b :: (bs ++ encode text) := by
            simp [encode, hc]
          rw [hsplit]
          simp only [decodeLossyWithin, hhead]
          rw [ih (by simpa using h)]

/-- Nothing of a text gets lost. -/
theorem decodeLossy_encode (text : List Char) : decodeLossy (encode text) = text :=
  decodeLossyWithin_encode (length_le_length_encode text)

theorem encode_append (text text' : List Char) :
    encode (text ++ text') = encode text ++ encode text' :=
  List.flatMap_append

end Utf8

/-- A string is read back from its bytes. -/
theorem Bytes.toString?_ofString (s : String) : (Bytes.ofString s).toString? = some s := by
  rw [Bytes.toString?, Bytes.ofString, Utf8.decode?_encode]
  simp

end ReplicatedLog
