import ReplicatedLog.Json.Error
import ReplicatedLog.Text.Decimal
import ReplicatedLog.Text.Utf8

/-!
# Reading JSON from bytes

The tokens of a document: white space, keywords, numbers and strings, and the
skipping of a whole value.  A parser takes the bytes that are left and gives back
a result with the bytes after it, or the first error in the order of the text.

Strings go through `StringMode.next`, which looks at one byte at a time; the
characters that escapes spell are collected as UTF-8 and the whole is checked at
the closing quote.
-/

namespace ReplicatedLog
namespace Json

open Ascii

/-- A parser takes bytes off the front of what is left. -/
abbrev Parser := StateT Bytes (Except Error)

/-- Stops with a fault. -/
def fail {α : Type} (fault : Fault) : Parser α :=
  throw (.malformed fault)

/-- The bytes between tokens. -/
def isSpace (b : UInt8) : Bool :=
  b = space || b = newline || b = tab || b = carriageReturn

/-- Passes over white space and shows the byte after it. -/
def peek : Parser (Option UInt8) := fun bytes =>
  let rest := bytes.dropWhile isSpace
  .ok (rest.head?, rest)

/-- Passes over one byte. -/
def skip : Parser Unit :=
  modify List.tail

/-- Passes over white space and shows the byte after it; `fault` if there is none. -/
def peekOr (fault : Fault) : Parser UInt8 := do
  match ← peek with
  | some b => return b
  | none => fail fault

section Keywords

/-- Reads the remaining bytes of a keyword. -/
def keyword : Bytes → Parser Unit
  | [] => pure ()
  | k :: ks => fun bytes =>
      match bytes with
      | [] => .error (.malformed .endInValue)
      | b :: rest =>
          if b = k then keyword ks rest else .error (.malformed .expectedKeyword)

/-- Reads `null` from its second letter on. -/
def restOfNull : Parser Unit := keyword (Bytes.ofString "ull")

/-- Reads `true` from its second letter on. -/
def restOfTrue : Parser Unit := keyword (Bytes.ofString "rue")

/-- Reads `false` from its second letter on. -/
def restOfFalse : Parser Unit := keyword (Bytes.ofString "alse")

end Keywords

section Numbers

/-- Takes the decimal digits at the front. -/
def digits : Parser Bytes := fun bytes =>
  .ok (bytes.takeWhile isDigit, bytes.dropWhile isDigit)

/-- The next byte, if there is one, left unread. -/
def front : Parser (Option UInt8) := fun bytes =>
  .ok (bytes.head?, bytes)

/-- The next byte, if there is one, taken. -/
def next : Parser (Option UInt8) := fun bytes =>
  .ok (bytes.head?, bytes.tail)

/-- Adds digits to a significand while it fits in 64 bits; the digits left over come back. -/
def gather : (significand : Nat) → Bytes → Nat × Bytes
  | s, [] => (s, [])
  | s, d :: ds =>
      let s' := 10 * s + digitValue d
      if s' ≤ Text.maxWord64 then gather s' ds else (s, d :: ds)

/-- A number that is not whole, from its sign, its significand and a power of ten. -/
def realNumber (isNegative : Bool) (significand : Nat) (exponent : Int) : Parser Number :=
  match Binary64.ofDecimal significand exponent with
  | some x => return .real isNegative x
  | none => fail .numberOutOfRange

/-- The largest exponent that is read digit by digit. -/
def maxWrittenExponent : Nat := 2147483647

/-- Reads an exponent after its letter. -/
def exponentPart (isNegative : Bool) (significand : Nat) (before : Int) : Parser Number := do
  let sign ← front
  if sign = some plus || sign = some minus then skip
  match ← front with
  | none => fail .endInValue
  | some b =>
      if isDigit b then
        let ds ← digits
        let e := ds.foldl (fun n d => 10 * n + digitValue d) 0
        if e ≤ maxWrittenExponent then
          let e : Int := if sign = some minus then -(e : Int) else e
          realNumber isNegative significand (before + e)
        else if significand ≠ 0 && sign ≠ some minus then
          fail .numberOutOfRange
        else
          return .real isNegative Binary64.zero
      else fail .invalidNumber

/-- Reads what may follow the digits of a number that is not whole. -/
def afterDigits (isNegative : Bool) (significand : Nat) (exponent : Int) : Parser Number := do
  match ← front with
  | some lowerE | some upperE =>
      skip
      exponentPart isNegative significand exponent
  | _ => realNumber isNegative significand exponent

/-- Reads a fraction after its point.  Digits that no longer fit are dropped. -/
def fractionPart (isNegative : Bool) (significand : Nat) (before : Int) : Parser Number := do
  let ds ← digits
  if ds.isEmpty then
    match ← front with
    | some _ => fail .invalidNumber
    | none => fail .endInValue
  else
    let (s, left) := gather significand ds
    afterDigits isNegative s (before - (ds.length - left.length : Nat))

/-- A whole number with a sign; a negative one that 64 bits cannot hold, and `-0`, is real. -/
def wholeNumber (isNegative : Bool) (n : Nat) : Parser Number :=
  if !isNegative then return .whole n
  else if 0 < n && n ≤ 9223372036854775808 then return .negative n
  else realNumber true n 0

/-- Reads a number after its sign. -/
def number (isNegative : Bool) : Parser Number := do
  match ← front with
  | none => fail .endInValue
  | some b =>
      if !isDigit b then fail .invalidNumber
      let ds ← digits
      if b = zero && ds.length ≠ 1 then fail .invalidNumber
      let (s, left) := gather 0 ds
      match ← front with
      | some dot =>
          skip
          fractionPart isNegative s left.length
      | some lowerE | some upperE =>
          skip
          exponentPart isNegative s left.length
      | _ =>
          if left.isEmpty then wholeNumber isNegative s
          else realNumber isNegative s left.length

/-- Passes over a number after its sign; every flaw is an invalid number. -/
def skipNumber : Parser Unit := do
  let ds ← digits
  if ds.isEmpty || (ds.head? = some zero && ds.length ≠ 1) then fail .invalidNumber
  if (← front) = some dot then
    skip
    if (← digits).isEmpty then fail .invalidNumber
  match ← front with
  | some lowerE | some upperE =>
      skip
      let sign ← front
      if sign = some plus || sign = some minus then skip
      if (← digits).isEmpty then fail .invalidNumber
  | _ => pure ()

end Numbers

section Strings

/-- Where the reading of a string stands. -/
inductive StringMode
  | plain
  /-- After a backslash. -/
  | escaped
  /-- In a numeric escape, after the digits `seen`; `high` is a first surrogate before it. -/
  | hex (high : Option Nat) (seen : List UInt8)
  /-- After a first surrogate. -/
  | wantBackslash (high : Nat)
  /-- After a first surrogate and a backslash. -/
  | wantU (high : Nat)
  deriving DecidableEq, Repr

/-- What one byte of a string leads to. -/
inductive StringStep
  | more (mode : StringMode) (out : Bytes)
  | closed
  | broken (fault : Fault)

/-- The byte that a one-letter escape stands for. -/
def shortEscape : UInt8 → Option UInt8
  | quote => some quote
  | backslash => some backslash
  | slash => some slash
  | lowerB => some 0x08
  | lowerF => some 0x0C
  | lowerN => some newline
  | lowerR => some carriageReturn
  | lowerT => some tab
  | _ => none

/-- The bytes of the character with the given number. -/
def codePoint (n : Nat) : Bytes :=
  Utf8.encodeChar (Char.ofNat n)

/-- The number that four hexadecimal digits denote. -/
def hexNumber (a b c d : UInt8) : Option Nat := do
  let a ← hexValue a
  let b ← hexValue b
  let c ← hexValue c
  let d ← hexValue d
  return ((a * 16 + b) * 16 + c) * 16 + d

/-- What a complete numeric escape leads to. -/
def closeHex (high : Option Nat) (n : Nat) : StringStep :=
  match high with
  | none =>
      if 0xDC00 ≤ n && n ≤ 0xDFFF then .broken .loneSurrogate
      else if 0xD800 ≤ n && n ≤ 0xDBFF then .more (.wantBackslash n) []
      else .more .plain (codePoint n)
  | some h =>
      if 0xDC00 ≤ n && n ≤ 0xDFFF then
        .more .plain (codePoint (0x10000 + (h - 0xD800) * 0x400 + (n - 0xDC00)))
      else .broken .loneSurrogate

/-- One byte of a string whose content is wanted. -/
def StringMode.next : StringMode → UInt8 → StringStep
  | .plain, b =>
      if b = quote then .closed
      else if b = backslash then .more .escaped []
      else if b < space then .broken .controlCharacter
      else .more .plain [b]
  | .escaped, b =>
      if b = lowerU then .more (.hex none []) []
      else match shortEscape b with
        | some c => .more .plain [c]
        | none => .broken .invalidEscape
  | .hex high [a, b, c], d =>
      match hexNumber a b c d with
      | some n => closeHex high n
      | none => .broken .invalidEscape
  | .hex high seen, b => .more (.hex high (seen ++ [b])) []
  | .wantBackslash high, b =>
      if b = backslash then .more (.wantU high) [] else .broken .unpairedSurrogate
  | .wantU high, b =>
      if b = lowerU then .more (.hex (some high) []) [] else .broken .unpairedSurrogate

/-- One byte of a string whose content is not wanted: surrogates need not be paired. -/
def StringMode.nextIgnored : StringMode → UInt8 → StringStep
  | .hex _ [a, b, c], d =>
      match hexNumber a b c d with
      | some _ => .more .plain []
      | none => .broken .invalidEscape
  | mode, b => mode.next b

/-- Reads the bytes of a string up to its closing quote; `acc` holds them in reverse. -/
def scanString (next : StringMode → UInt8 → StringStep) :
    StringMode → (acc : Bytes) → Parser Bytes
  | _, _, [] => .error (.malformed .endInString)
  | mode, acc, b :: rest =>
      match next mode b with
      | .more mode' out => scanString next mode' (out.reverse ++ acc) rest
      | .closed => .ok (acc.reverse, rest)
      | .broken fault => .error (.malformed fault)

/-- Reads a string after its opening quote. -/
def stringBody : Parser String := do
  let bytes ← scanString StringMode.next .plain []
  match bytes.toString? with
  | some s => return s
  | none => fail .invalidText

/-- Passes over a string after its opening quote. -/
def skipString : Parser Unit := do
  let _ ← scanString StringMode.nextIgnored .plain []

end Strings

section Skipping

/-- What a skipped value stands in. -/
inductive Frame
  | list
  | object
  deriving DecidableEq, Repr

/-- Where the skipping of a value stands. -/
inductive Skipping
  /-- A value is due. -/
  | value
  /-- A list or object has been opened. -/
  | opened
  /-- A value has ended. -/
  | ended
  deriving DecidableEq, Repr

/-- Passes over a key and its colon. -/
def skipKey : Parser Unit := do
  if (← peekOr .endInObject) ≠ quote then fail .keyNotString
  skip
  skipString
  if (← peekOr .endInObject) ≠ colon then fail .expectedColon
  skip

/-- A value is due next, behind a key if it stands in an object. -/
def beforeValue (frames : List Frame) : Parser Skipping := do
  if frames.head? = some .object then skipKey
  return .value

/-- One token of a skipped value: the frames still open after it, and where skipping stands. -/
def skipToken (frames : List Frame) : Skipping → Parser (List Frame × Skipping)
  | .value => do
      let b ← peekOr .endInValue
      if b = openBracket then
        skip
        return (.list :: frames, .opened)
      if b = openBrace then
        skip
        return (.object :: frames, .opened)
      if b = lowerN then
        skip
        restOfNull
      else if b = lowerT then
        skip
        restOfTrue
      else if b = lowerF then
        skip
        restOfFalse
      else if b = minus then
        skip
        skipNumber
      else if isDigit b then skipNumber
      else if b = quote then
        skip
        skipString
      else fail .expectedValue
      return (frames, .ended)
  | state =>
      match frames with
      | [] => return ([], .ended)
      | frame :: outer => do
          let isList := frame = .list
          let b ← peekOr (if isList then .endInList else .endInObject)
          if b = comma && state = .ended then
            skip
            return (frames, ← beforeValue frames)
          else if b = (if isList then closeBracket else closeBrace) then
            skip
            return (outer, .ended)
          else if state = .ended then
            fail (if isList then .expectedListEnd else .expectedObjectEnd)
          else
            return (frames, ← beforeValue frames)

/-- Passes over tokens until no frame is open; two tokens take at least one byte. -/
def skipTokens : (fuel : Nat) → List Frame → Skipping → Parser Unit
  | 0, _, _ => pure ()
  | fuel + 1, frames, state => do
      let (frames, state) ← skipToken frames state
      if frames.isEmpty && state = .ended then pure ()
      else skipTokens fuel frames state

/-- Passes over a whole value of any depth. -/
def skipValue : Parser Unit := do
  let bytes ← get
  skipTokens (2 * bytes.length + 2) [] .value

end Skipping

end Json
end ReplicatedLog
