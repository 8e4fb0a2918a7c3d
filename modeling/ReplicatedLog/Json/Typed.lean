import ReplicatedLog.Json.Scan

/-!
# Reading JSON as values of a known type

Parsers for the types that documents of this library are made of.

* `mismatch` names the value that stands where another type is wanted;
* `naturalUpTo`, `string`, `truth`, `nullable`, `listOf` and `mapOf` read the
  plain types;
* `variant` reads a name from a fixed list, given as a string or as an object
  with that name as its only key and `null` behind it;
* `Layout.read` reads a structure, given as an object with its fields in any
  order or as a list of its fields in their own order.

Unknown fields are passed over; the first error in the order of the text wins.
-/

namespace ReplicatedLog
namespace Json

open Ascii

/-- Refuses the value at the front, which is not of the wanted type. -/
def mismatch {α : Type} (wanted : String) : Parser α := do
  match ← peek with
  | none => fail .expectedValue
  | some b =>
      let wrong := fun found => throw (Error.wrongType found wanted)
      if b = lowerN then
        skip
        restOfNull
        wrong .null
      else if b = lowerT then
        skip
        restOfTrue
        wrong (.truth true)
      else if b = lowerF then
        skip
        restOfFalse
        wrong (.truth false)
      else if b = minus then
        skip
        wrong (.number (← number true))
      else if isDigit b then
        wrong (.number (← number false))
      else if b = quote then
        skip
        wrong (.string (← stringBody))
      else if b = openBracket then wrong .list
      else if b = openBrace then wrong .object
      else fail .expectedValue

/-- Accepts a whole number within the bound. -/
def acceptNatural (bound : Nat) (wanted : String) : Number → Parser Nat
  | .whole n =>
      if n ≤ bound then return n
      else throw (.outOfRange (.number (.whole n)) wanted)
  | .negative n => throw (.outOfRange (.number (.negative n)) wanted)
  | n => throw (.wrongType (.number n) wanted)

/-- Reads a whole number within the bound; `wanted` is the name of the type. -/
def naturalUpTo (bound : Nat) (wanted : String) : Parser Nat := do
  let b ← peekOr .endInValue
  if b = minus then
    skip
    acceptNatural bound wanted (← number true)
  else if isDigit b then acceptNatural bound wanted (← number false)
  else mismatch wanted

/-- Reads a number of 64 bits. -/
def word64 : Parser Nat := naturalUpTo Text.maxWord64 "u64"

/-- Reads a number of 32 bits. -/
def word32 : Parser Nat := naturalUpTo Text.maxWord32 "u32"

/-- Reads a count, which has the range of a machine word. -/
def count : Parser Nat := naturalUpTo Text.maxWord64 "usize"

/-- Reads a string. -/
def string : Parser String := do
  if (← peekOr .endInValue) = quote then
    skip
    stringBody
  else mismatch "a string"

/-- Reads a truth value. -/
def truth : Parser Bool := do
  let b ← peekOr .endInValue
  if b = lowerT then
    skip
    restOfTrue
    return true
  else if b = lowerF then
    skip
    restOfFalse
    return false
  else mismatch "a boolean"

/-- Reads `null` alone. -/
def nothing : Parser Unit := do
  if (← peekOr .endInValue) = lowerN then
    skip
    restOfNull
  else mismatch "unit"

/-- Reads `null` as no value and anything else as a value. -/
def nullable {α : Type} (read : Parser α) : Parser (Option α) := do
  if (← peek) = some lowerN then
    skip
    restOfNull
    return none
  else return some (← read)

section Containers

/-- Whether a list goes on, and past its comma if it does; `first` before the first item. -/
def listGoesOn (first : Bool) : Parser Bool := do
  let b ← peekOr .endInList
  if b = closeBracket then return false
  else if first then return true
  else if b = comma then
    skip
    if (← peekOr .endInValue) = closeBracket then fail .trailingComma
    return true
  else fail .expectedListEnd

/-- Passes over the end of a list. -/
def endList : Parser Unit := do
  let b ← peekOr .endInList
  if b = closeBracket then skip
  else if b = comma then
    skip
    if (← peek) = some closeBracket then fail .trailingComma
    else fail .trailingCharacters
  else fail .trailingCharacters

/-- Whether an object goes on, and past its comma if it does; `first` before the first key. -/
def objectGoesOn (first : Bool) : Parser Bool := do
  let b ← peekOr .endInObject
  if b = closeBrace then return false
  else if first then
    if b = quote then return true else fail .keyNotString
  else if b = comma then
    skip
    let b ← peekOr .endInValue
    if b = quote then return true
    else if b = closeBrace then fail .trailingComma
    else fail .keyNotString
  else fail .expectedObjectEnd

/-- Passes over the end of an object. -/
def endObject : Parser Unit := do
  let b ← peekOr .endInObject
  if b = closeBrace then skip
  else if b = comma then fail .trailingComma
  else fail .trailingCharacters

/-- Reads a key, which `objectGoesOn` has seen. -/
def key : Parser String := do
  let _ ← peek
  skip
  stringBody

/-- Passes over the colon behind a key. -/
def colonBefore : Parser Unit := do
  if (← peekOr .endInObject) = colon then skip else fail .expectedColon

/-- Reads the items of a list onto `acc`; every item takes at least one byte. -/
def items {α : Type} (read : Parser α) : (fuel : Nat) → (first : Bool) → List α →
    Parser (List α)
  | 0, _, acc => return acc.reverse
  | fuel + 1, first, acc => do
      if ← listGoesOn first then
        let a ← read
        items read fuel false (a :: acc)
      else return acc.reverse

/-- Reads a list. -/
def listOf {α : Type} (read : Parser α) : Parser (List α) := do
  if (← peekOr .endInValue) = openBracket then
    skip
    let bytes ← get
    let found ← items read (bytes.length + 1) true []
    endList
    return found
  else mismatch "a sequence"

/-- Folds the members of an object; every member takes at least one byte. -/
def members {σ : Type} (read : String → σ → Parser σ) : (fuel : Nat) → (first : Bool) → σ →
    Parser σ
  | 0, _, s => return s
  | fuel + 1, first, s => do
      if ← objectGoesOn first then
        let k ← key
        let s ← read k s
        members read fuel false s
      else return s

/-- Reads an object by folding its members in the order of the text. -/
def mapOf {α σ : Type} (read : Parser α) (insert : σ → String → α → σ) (start : σ) :
    Parser σ := do
  if (← peekOr .endInValue) = openBrace then
    skip
    let bytes ← get
    let found ← members
      (fun k s => do
        colonBefore
        return insert s k (← read))
      (bytes.length + 1) true start
    endObject
    return found
  else mismatch "a map"

end Containers

section Variants

/-- The value that a name stands for among the known ones. -/
def lookUp {α : Type} (known : List (String × α)) (name : String) : Parser α :=
  match known.lookup name with
  | some a => return a
  | none => throw (.unknownVariant name (known.map Prod.fst))

/-- Reads one of the known names. -/
def variant {α : Type} (known : List (String × α)) : Parser α := do
  let b ← peekOr .endInValue
  if b = openBrace then
    skip
    let a ←
      match ← peek with
      | some quote => do
          skip
          lookUp known (← stringBody)
      | some _ => mismatch "variant identifier"
      | none => fail .endInValue
    colonBefore
    nothing
    if (← peekOr .endInObject) = closeBrace then
      skip
      return a
    else fail .expectedValue
  else if b = quote then
    skip
    lookUp known (← stringBody)
  else fail .expectedValue

end Variants

section Records

/-- A field of a structure whose values gather in `σ` as they are read. -/
structure FieldParser (σ : Type) where
  name : String
  /-- Whether the field has been read. -/
  isSet : σ → Bool
  /-- Reads the value and keeps it. -/
  read : σ → Parser σ
  /-- Whether the list form may end before this field. -/
  mayBeCutOff : Bool

/-- How a structure is written: its name in messages, its fields in order, the state before any
field has been read, and the making of the structure, which refuses what is missing. -/
structure Layout (σ α : Type) where
  typeName : String
  fields : List (FieldParser σ)
  start : σ
  build : σ → Except Error α

namespace Layout

variable {σ α : Type}

/-- One member of the object form. -/
def member (r : Layout σ α) (k : String) (s : σ) : Parser σ :=
  match r.fields.find? (fun f => f.name == k) with
  | none => do
      colonBefore
      skipValue
      return s
  | some f =>
      if f.isSet s then throw (.duplicateField k)
      else do
        colonBefore
        f.read s

/-- The fields of the list form, from the one with the given index on. -/
def elements (r : Layout σ α) : List (FieldParser σ) → (index : Nat) → σ → Parser σ
  | [], _, s => return s
  | f :: fs, index, s => do
      if ← listGoesOn (index = 0) then
        elements r fs (index + 1) (← f.read s)
      else if f.mayBeCutOff then elements r fs (index + 1) s
      else throw (.wrongLength index ("struct " ++ r.typeName) r.fields.length)

/-- Reads a structure. -/
def read (r : Layout σ α) : Parser α := do
  let b ← peekOr .endInValue
  if b = openBracket then
    skip
    let s ← r.elements r.fields 0 r.start
    let a ← (r.build s : Except Error α)
    endList
    return a
  else if b = openBrace then
    skip
    let bytes ← get
    let s ← members r.member (bytes.length + 1) true r.start
    let a ← (r.build s : Except Error α)
    endObject
    return a
  else mismatch ("struct " ++ r.typeName)

end Layout

/-- A field that has to be there. -/
def required {α : Type} (name : String) : Option α → Except Error α
  | some a => .ok a
  | none => .error (.missingField name)

end Records

/-- Reads a whole document: one value and nothing but white space after it. -/
def decode {α : Type} (read : Parser α) (document : Bytes) : Except Error α :=
  match read document with
  | .error e => .error e
  | .ok (a, rest) =>
      if (rest.dropWhile isSpace).isEmpty then .ok a
      else .error (.malformed .trailingCharacters)

end Json
end ReplicatedLog
