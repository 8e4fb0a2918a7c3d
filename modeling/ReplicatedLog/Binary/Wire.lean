import ReplicatedLog.Binary.Fault
import ReplicatedLog.Text.Utf8

/-!
# The compact binary format

Whole numbers are written seven bits to a byte, lowest first, every byte but the
last with its high bit set.  A text is its length in bytes and then its bytes, a
map the number of its entries and then each key with its value, a choice the
number of the alternative.  Nothing separates the parts: each says where it ends,
so bytes after a value are left alone.
-/

namespace ReplicatedLog
namespace Binary

/-- A parser takes bytes off the front of what is left. -/
abbrev Parser := StateT Bytes (Except Fault)

section Numbers

/-- The number of bytes that a word of 64 bits may take. -/
def places64 : Nat := 10

/-- The number of bytes that a word of 32 bits may take. -/
def places32 : Nat := 5

/-- Writes a number in at most `places` bytes. -/
def varintWithin : (places : Nat) → Nat → Bytes
  | 0, _ => []
  | places + 1, n =>
      if n < 128 then [n.toUInt8]
      else (n % 128 + 128).toUInt8 :: varintWithin places (n / 128)

/-- Writes a word of 64 bits or less. -/
def varint (n : Nat) : Bytes :=
  varintWithin places64 n

/-- Reads a number of at most `places` bytes, of which the last possible one may not exceed
`last`. -/
def readVarint (last : Nat) : (places : Nat) → Parser Nat
  | 0 => throw .badVarint
  | places + 1 => fun bytes =>
      match bytes with
      | [] => .error .unexpectedEnd
      | b :: rest =>
          if b.toNat < 128 then
            if places = 0 ∧ last < b.toNat then .error .badVarint
            else .ok (b.toNat, rest)
          else
            match readVarint last places rest with
            | .ok (n, rest) => .ok (b.toNat - 128 + 128 * n, rest)
            | .error fault => .error fault

/-- Reads a word of 64 bits. -/
def readWord64 : Parser Nat :=
  readVarint 1 places64

/-- Reads a word of 32 bits. -/
def readWord32 : Parser Nat :=
  readVarint 15 places32

end Numbers

section Texts

/-- Takes a number of bytes. -/
def take (n : Nat) : Parser Bytes := fun bytes =>
  if bytes.length < n then .error .unexpectedEnd
  else .ok (bytes.take n, bytes.drop n)

/-- Writes a text. -/
def text (s : String) : Bytes :=
  let bytes := Bytes.ofString s
  varint bytes.length ++ bytes

/-- Reads a text. -/
def readText : Parser String := do
  let bytes ← take (← readWord64)
  match bytes.toString? with
  | some s => return s
  | none => throw .badText

end Texts

section Maps

/-- Writes the entries of a map. -/
def entries (pairs : List (String × String)) : Bytes :=
  varint pairs.length ++ pairs.flatMap fun (k, v) => text k ++ text v

/-- Reads a number of entries into a map. -/
def readEntries {σ : Type} (insert : σ → String → String → σ) : (count : Nat) → σ → Parser σ
  | 0, m => return m
  | count + 1, m => do
      let k ← readText
      let v ← readText
      readEntries insert count (insert m k v)

end Maps

section Choices

/-- Reads the number of an alternative and gives the alternative back. -/
def readChoice {α : Type} (known : List α) : Parser α := do
  match known[← readWord32]? with
  | some a => return a
  | none => throw .refusedToRead

end Choices

/-- Reads a value from the front of the bytes; what follows it is left alone. -/
def decode {α : Type} (read : Parser α) (bytes : Bytes) : Except Fault α :=
  (read bytes).map Prod.fst

end Binary
end ReplicatedLog
