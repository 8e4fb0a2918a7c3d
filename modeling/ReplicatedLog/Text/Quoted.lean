import ReplicatedLog.Text.Blank
import ReplicatedLog.Text.Extending
import ReplicatedLog.Text.Unprintable

/-!
# Quoted texts

Error messages show a text between double quotes, so that its ends and its
invisible characters can be seen.  The null character, the tab, the line breaks,
the double quote and the backslash have short escapes.  A character without a
printed form, and one that would merge with its neighbour, is shown by its
number.  Everything else, the apostrophe included, stands for itself.
-/

namespace ReplicatedLog
namespace Text

/-- The digits of a number in base sixteen, lower case, without leading zeros. -/
def hexDigits (n : Nat) : List Char :=
  Nat.toDigits 16 n

/-- Whether a quoted text shows the character by its number. -/
def shownByNumber (c : Char) : Bool :=
  let n := c.toNat
  if 0x20 ≤ n && n ≤ 0x7E then false
  else inRanges extendingRanges n || inRanges unprintableRanges n

/-- How a quoted text shows one character. -/
def quoteChar (c : Char) : List Char :=
  if c = Char.ofNat 0 then ['\\', '0']
  else if c = '\t' then ['\\', 't']
  else if c = '\r' then ['\\', 'r']
  else if c = '\n' then ['\\', 'n']
  else if c = '"' then ['\\', '"']
  else if c = '\\' then ['\\', '\\']
  else if shownByNumber c then
    ['\\', 'u', Char.ofNat 0x7B] ++ hexDigits c.toNat ++ [Char.ofNat 0x7D]
  else [c]

/-- A text between double quotes, escaped. -/
def quote (s : String) : String :=
  String.ofList ('"' :: s.toList.flatMap quoteChar ++ ['"'])

end Text
end ReplicatedLog
