/-!
# Bytes and their ASCII names

Encoded keys, values and texts are lists of bytes.  The formats in this library
are written with a handful of ASCII marks, which get names here that may be used
in patterns as well as in terms.
-/

namespace ReplicatedLog

/-- Encoded data, first byte first. -/
abbrev Bytes := List UInt8

namespace Ascii

/-- The byte `\t`. -/
@[match_pattern] abbrev tab : UInt8 := 0x09
/-- The byte `\n`. -/
@[match_pattern] abbrev newline : UInt8 := 0x0A
/-- The byte `\r`. -/
@[match_pattern] abbrev carriageReturn : UInt8 := 0x0D
/-- The space byte. -/
@[match_pattern] abbrev space : UInt8 := 0x20
/-- The byte `"`. -/
@[match_pattern] abbrev quote : UInt8 := 0x22
/-- The byte `+`. -/
@[match_pattern] abbrev plus : UInt8 := 0x2B
/-- The byte `,`. -/
@[match_pattern] abbrev comma : UInt8 := 0x2C
/-- The byte `-`. -/
@[match_pattern] abbrev minus : UInt8 := 0x2D
/-- The byte `.`. -/
@[match_pattern] abbrev dot : UInt8 := 0x2E
/-- The byte `/`. -/
@[match_pattern] abbrev slash : UInt8 := 0x2F
/-- The byte `0`. -/
@[match_pattern] abbrev zero : UInt8 := 0x30
/-- The byte `:`. -/
@[match_pattern] abbrev colon : UInt8 := 0x3A
/-- The byte `E`. -/
@[match_pattern] abbrev upperE : UInt8 := 0x45
/-- The byte `[`. -/
@[match_pattern] abbrev openBracket : UInt8 := 0x5B
/-- The byte `\`. -/
@[match_pattern] abbrev backslash : UInt8 := 0x5C
/-- The byte `]`. -/
@[match_pattern] abbrev closeBracket : UInt8 := 0x5D
/-- The byte `b`. -/
@[match_pattern] abbrev lowerB : UInt8 := 0x62
/-- The byte `e`. -/
@[match_pattern] abbrev lowerE : UInt8 := 0x65
/-- The byte `f`. -/
@[match_pattern] abbrev lowerF : UInt8 := 0x66
/-- The byte `n`. -/
@[match_pattern] abbrev lowerN : UInt8 := 0x6E
/-- The byte `r`. -/
@[match_pattern] abbrev lowerR : UInt8 := 0x72
/-- The byte `t`. -/
@[match_pattern] abbrev lowerT : UInt8 := 0x74
/-- The byte `u`. -/
@[match_pattern] abbrev lowerU : UInt8 := 0x75
/-- The byte `{`. -/
@[match_pattern] abbrev openBrace : UInt8 := 0x7B
/-- The byte `}`. -/
@[match_pattern] abbrev closeBrace : UInt8 := 0x7D

/-- The bytes `0` to `9`. -/
def isDigit (b : UInt8) : Bool :=
  zero ≤ b && b ≤ 0x39

/-- The number a decimal digit stands for. -/
def digitValue (b : UInt8) : Nat :=
  b.toNat - 0x30

/-- The digit that stands for a number below ten. -/
def digit (n : Nat) : UInt8 :=
  (0x30 + n).toUInt8

/-- The number a hexadecimal digit of either case stands for. -/
def hexValue (b : UInt8) : Option Nat :=
  if isDigit b then some (digitValue b)
  else if 0x61 ≤ b && b ≤ 0x66 then some (b.toNat - 0x57)
  else if 0x41 ≤ b && b ≤ 0x46 then some (b.toNat - 0x37)
  else none

/-- The lower-case hexadecimal digit of a number below sixteen. -/
def hexDigit (n : Nat) : UInt8 :=
  if n < 10 then digit n else (0x57 + n).toUInt8

end Ascii

/-- The two lower-case hexadecimal digits of every byte. -/
def Bytes.toHex (bytes : Bytes) : String :=
  String.ofList (bytes.flatMap fun b =>
    [Ascii.hexDigit (b.toNat / 16), Ascii.hexDigit (b.toNat % 16)].map
      fun d => Char.ofNat d.toNat)

/-- The bytes that pairs of hexadecimal digits spell. -/
def Bytes.ofHex? : List Char → Option Bytes
  | [] => some []
  | [_] => none
  | a :: b :: rest => do
      let high ← if a.toNat < 256 then Ascii.hexValue a.toNat.toUInt8 else none
      let low ← if b.toNat < 256 then Ascii.hexValue b.toNat.toUInt8 else none
      let bytes ← Bytes.ofHex? rest
      return (16 * high + low).toUInt8 :: bytes

end ReplicatedLog
