/-!
# Whole numbers in decimal

Numbers as digits and back.  `readNatUpTo` accepts an optional plus sign and then
at least one digit, and refuses a number above its bound; leading zeros are
allowed, white space and separators are not.
-/

namespace ReplicatedLog
namespace Text

/-- The largest number of 64 bits. -/
def maxWord64 : Nat := 18446744073709551615

/-- The largest number of 32 bits. -/
def maxWord32 : Nat := 4294967295

/-- Whether a character is one of the ten ASCII digits. -/
def isDigit (c : Char) : Bool :=
  '0'.toNat ≤ c.toNat && c.toNat ≤ '9'.toNat

/-- The number that digits denote, after `start` has been read. -/
def digitsValue (start : Nat) (digits : List Char) : Nat :=
  digits.foldl (fun n c => 10 * n + (c.toNat - '0'.toNat)) start

/-- Reads digits alone. -/
def readDigits (text : List Char) : Option Nat :=
  if text.isEmpty || !text.all isDigit then none
  else some (digitsValue 0 text)

/-- Reads a number with an optional plus sign that does not exceed the bound. -/
def readNatUpTo (bound : Nat) (text : List Char) : Option Nat :=
  let digits := match text with
    | '+' :: rest => rest
    | _ => text
  (readDigits digits).filter (· ≤ bound)

end Text
end ReplicatedLog
