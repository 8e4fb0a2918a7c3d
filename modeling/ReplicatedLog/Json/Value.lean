import ReplicatedLog.Json.Typed

/-!
# JSON values

Values of any type, their compact text, and the parser that takes such text
apart again.

* `Value.render` writes without white space, members in the order given, and
  escapes in strings only the double quote, the backslash and the control
  characters;
* `Value.read` reads any value that is nested at most `depthLimit - 1` deep; a
  key that occurs again replaces the member before it, and the members come out
  sorted by key.
-/

namespace ReplicatedLog
namespace Json

open Ascii

/-- A JSON value. -/
inductive Value
  | null
  | truth (b : Bool)
  | number (n : Number)
  | string (s : String)
  | list (items : List Value)
  | object (members : List (String × Value))
  deriving Repr

section Rendering

/-- How a string shows one byte of its UTF-8 form. -/
def escapeByte (b : UInt8) : Bytes :=
  if b = quote then [backslash, quote]
  else if b = backslash then [backslash, backslash]
  else if b = 0x08 then [backslash, lowerB]
  else if b = 0x0C then [backslash, lowerF]
  else if b = newline then [backslash, lowerN]
  else if b = carriageReturn then [backslash, lowerR]
  else if b = tab then [backslash, lowerT]
  else if b < space then
    [backslash, lowerU, zero, zero, hexDigit (b.toNat / 16), hexDigit (b.toNat % 16)]
  else [b]

/-- The text of a string. -/
def renderString (s : String) : Bytes :=
  quote :: (Bytes.ofString s).flatMap escapeByte ++ [quote]

mutual

/-- The compact text of a value. -/
def Value.render : Value → Bytes
  | .null => Bytes.ofString "null"
  | .truth true => Bytes.ofString "true"
  | .truth false => Bytes.ofString "false"
  | .number n => Bytes.ofString n.text
  | .string s => renderString s
  | .list vs => openBracket :: renderItems vs ++ [closeBracket]
  | .object ms => openBrace :: renderMembers ms ++ [closeBrace]

/-- The items of a list, with commas between them. -/
def renderItems : List Value → Bytes
  | [] => []
  | [v] => v.render
  | v :: w :: vs => v.render ++ comma :: renderItems (w :: vs)

/-- The members of an object, with commas between them. -/
def renderMembers : List (String × Value) → Bytes
  | [] => []
  | [(k, v)] => renderString k ++ colon :: v.render
  | (k, v) :: m :: ms => renderString k ++ colon :: v.render ++ comma :: renderMembers (m :: ms)

end

/-- The compact text of a value, as a string. -/
def Value.text (v : Value) : String :=
  (v.render.toString?).getD ""

end Rendering

section Reading

/-- Puts a member in the place that its key has among sorted members, over one with that key. -/
def insertMember (k : String) (v : Value) : List (String × Value) → List (String × Value)
  | [] => [(k, v)]
  | (l, w) :: ms =>
      if k < l then (k, v) :: (l, w) :: ms
      else if k = l then (k, v) :: ms
      else (l, w) :: insertMember k v ms

/-- How many lists and objects may be open at once, plus one. -/
def depthLimit : Nat := 128

/-- Reads a value with fewer than `depth` lists and objects open at once. -/
def Value.readWithin : (depth : Nat) → Parser Value
  | 0 => fail .tooDeep
  | depth + 1 => do
      let b ← peekOr .endInValue
      if b = lowerN then
        skip
        restOfNull
        return .null
      else if b = lowerT || b = lowerF then
        return .truth (← Json.truth)
      else if b = minus then
        skip
        return .number (← Json.number true)
      else if isDigit b then
        return .number (← Json.number false)
      else if b = quote then
        skip
        return .string (← stringBody)
      else if b = openBracket then
        if depth = 0 then fail .tooDeep
        return .list (← listOf (readWithin depth))
      else if b = openBrace then
        if depth = 0 then fail .tooDeep
        return .object (← mapOf (readWithin depth) (fun ms k v => insertMember k v ms) [])
      else fail .expectedValue

/-- Reads a value. -/
def Value.read : Parser Value :=
  Value.readWithin depthLimit

end Reading

end Json
end ReplicatedLog
