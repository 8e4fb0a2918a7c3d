import ReplicatedLog.Text.Ascii

/-!
# UTF-8

Characters as bytes and back, over plain lists.

* `Utf8.encode` writes every character with the fewest bytes;
* `Utf8.decode?` reads only such text: no overlong form, no surrogate, nothing
  above U+10FFFF, no character cut short;
* `Utf8.decodeLossy` reads any bytes: each longest run that begins a character
  and is then broken off becomes one replacement character.
-/

namespace ReplicatedLog
namespace Utf8

/-- The bytes of one character. -/
def encodeChar (c : Char) : Bytes :=
  let n := c.toNat
  if n < 0x80 then
    [n.toUInt8]
  else if n < 0x800 then
    [(0xC0 + n / 0x40).toUInt8, (0x80 + n % 0x40).toUInt8]
  else if n < 0x10000 then
    [(0xE0 + n / 0x1000).toUInt8, (0x80 + n / 0x40 % 0x40).toUInt8,
      (0x80 + n % 0x40).toUInt8]
  else
    [(0xF0 + n / 0x40000).toUInt8, (0x80 + n / 0x1000 % 0x40).toUInt8,
      (0x80 + n / 0x40 % 0x40).toUInt8, (0x80 + n % 0x40).toUInt8]

/-- The bytes of a text. -/
def encode (text : List Char) : Bytes :=
  text.flatMap encodeChar

/-- What stands at the front of nonempty bytes. -/
inductive Head
  /-- A whole character, and the bytes after it. -/
  | whole (c : Char) (rest : Bytes)
  /-- The beginning of no character: the bytes after the part that could have been one. -/
  | broken (rest : Bytes)

/-- Continuation bytes carry six bits each. -/
def isContinuation (b : UInt8) : Bool :=
  0x80 ≤ b && b ≤ 0xBF

/-- The six bits of a continuation byte. -/
def low (b : UInt8) : Nat :=
  b.toNat % 0x40

/-- Which second bytes may follow a leading byte of three. -/
def secondOfThree (b c : UInt8) : Bool :=
  if b = 0xE0 then 0xA0 ≤ c && c ≤ 0xBF
  else if b = 0xED then 0x80 ≤ c && c ≤ 0x9F
  else isContinuation c

/-- Which second bytes may follow a leading byte of four. -/
def secondOfFour (b c : UInt8) : Bool :=
  if b = 0xF0 then 0x90 ≤ c && c ≤ 0xBF
  else if b = 0xF4 then 0x80 ≤ c && c ≤ 0x8F
  else isContinuation c

/-- Reads the character that a leading byte begins. -/
def head (b : UInt8) (rest : Bytes) : Head :=
  if b < 0x80 then
    .whole (Char.ofNat b.toNat) rest
  else if 0xC2 ≤ b && b ≤ 0xDF then
    match rest with
    | c :: r =>
        if isContinuation c then
          .whole (Char.ofNat (b.toNat % 0x20 * 0x40 + low c)) r
        else .broken rest
    | [] => .broken rest
  else if 0xE0 ≤ b && b ≤ 0xEF then
    match rest with
    | c :: r =>
        if secondOfThree b c then
          match r with
          | d :: s =>
              if isContinuation d then
                .whole (Char.ofNat (b.toNat % 0x10 * 0x1000 + low c * 0x40 + low d)) s
              else .broken r
          | [] => .broken r
        else .broken rest
    | [] => .broken rest
  else if 0xF0 ≤ b && b ≤ 0xF4 then
    match rest with
    | c :: r =>
        if secondOfFour b c then
          match r with
          | d :: s =>
              if isContinuation d then
                match s with
                | e :: t =>
                    if isContinuation e then
                      .whole (Char.ofNat (b.toNat % 0x08 * 0x40000 + low c * 0x1000
                        + low d * 0x40 + low e)) t
                    else .broken s
                | [] => .broken s
              else .broken r
          | [] => .broken r
        else .broken rest
    | [] => .broken rest
  else
    .broken rest

/-- Reads a text, if the bytes are one; the character count is bounded by `fuel`. -/
def decodeWithin : (fuel : Nat) → Bytes → Option (List Char)
  | _, [] => some []
  | 0, _ :: _ => none
  | fuel + 1, b :: bytes =>
      match head b bytes with
      | .whole c rest => (decodeWithin fuel rest).map (c :: ·)
      | .broken _ => none

/-- The text that the bytes spell, if they are valid throughout. -/
def decode? (bytes : Bytes) : Option (List Char) :=
  decodeWithin bytes.length bytes

/-- Reads as `decodeLossy` does, at most `fuel` characters. -/
def decodeLossyWithin : (fuel : Nat) → Bytes → List Char
  | _, [] => []
  | 0, _ :: _ => []
  | fuel + 1, b :: bytes =>
      match head b bytes with
      | .whole c rest => c :: decodeLossyWithin fuel rest
      | .broken rest => Char.ofNat 0xFFFD :: decodeLossyWithin fuel rest

/-- The text of any bytes, with U+FFFD for each part that is no character. -/
def decodeLossy (bytes : Bytes) : List Char :=
  decodeLossyWithin bytes.length bytes

end Utf8

/-- The UTF-8 bytes of a string. -/
def Bytes.ofString (s : String) : Bytes :=
  Utf8.encode s.toList

/-- The string that the bytes spell, if they are valid UTF-8. -/
def Bytes.toString? (bytes : Bytes) : Option String :=
  (Utf8.decode? bytes).map String.ofList

end ReplicatedLog
