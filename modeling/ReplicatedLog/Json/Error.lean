import ReplicatedLog.Number.Shortest
import ReplicatedLog.Text.Quoted

/-!
# What can be wrong with a JSON document

`Json.Fault` lists the ways in which bytes fail to be JSON, `Json.Error` adds
the ways in which a JSON document fails to be a value of the wanted type.  Both
are causes; `Json.Error.message` is the only place where they are put in words.
-/

namespace ReplicatedLog
namespace Json

/-- Ways in which bytes fail to be a JSON document. -/
inductive Fault
  | endInList
  | endInObject
  | endInString
  | endInValue
  | expectedColon
  | expectedListEnd
  | expectedObjectEnd
  | expectedKeyword
  | expectedValue
  | invalidEscape
  | invalidNumber
  | numberOutOfRange
  | invalidText
  | controlCharacter
  | keyNotString
  | loneSurrogate
  | unpairedSurrogate
  | trailingComma
  | trailingCharacters
  | tooDeep
  deriving DecidableEq, Repr

/-- The wording of a fault. -/
def Fault.message : Fault → String
  | endInList => "EOF while parsing a list"
  | endInObject => "EOF while parsing an object"
  | endInString => "EOF while parsing a string"
  | endInValue => "EOF while parsing a value"
  | expectedColon => "expected `:`"
  | expectedListEnd => "expected `,` or `]`"
  | expectedObjectEnd => "expected `,` or `\x7d`"
  | expectedKeyword => "expected ident"
  | expectedValue => "expected value"
  | invalidEscape => "invalid escape"
  | invalidNumber => "invalid number"
  | numberOutOfRange => "number out of range"
  | invalidText => "invalid unicode code point"
  | controlCharacter =>
      "control character (\\u0000-\\u001F) found while parsing a string"
  | keyNotString => "key must be a string"
  | loneSurrogate => "lone leading surrogate in hex escape"
  | unpairedSurrogate => "unexpected end of hex escape"
  | trailingComma => "trailing comma"
  | trailingCharacters => "trailing characters"
  | tooDeep => "recursion limit exceeded"

/-- A number as a document writes it. -/
inductive Number
  /-- A whole number of 64 bits. -/
  | whole (n : Nat)
  /-- The negative of a number from 1 to 2 ^ 63. -/
  | negative (n : Nat)
  /-- Any other number, with its sign. -/
  | real (isNegative : Bool) (magnitude : Binary64)
  deriving DecidableEq, Repr

/-- The text of a number. -/
def Number.text : Number → String
  | whole n => toString n
  | negative n => "-" ++ toString n
  | real false x => x.text
  | real true x => "-" ++ x.text

/-- A value met where another type of value is wanted. -/
inductive Found
  | null
  | truth (b : Bool)
  | number (n : Number)
  | string (s : String)
  | list
  | object
  deriving DecidableEq, Repr

/-- How a message names the value that was met. -/
def Found.text : Found → String
  | null => "null"
  | truth true => "boolean `true`"
  | truth false => "boolean `false`"
  | number (.real isNegative x) =>
      "floating point `" ++ (Number.real isNegative x).text ++ "`"
  | number n => "integer `" ++ n.text ++ "`"
  | string s => "string " ++ Text.quote s
  | list => "sequence"
  | object => "map"

/-- Why a document is not a value of the wanted type. -/
inductive Error
  | malformed (fault : Fault)
  /-- A value of another type. -/
  | wrongType (found : Found) (wanted : String)
  /-- A value of the right type that the wanted one cannot hold. -/
  | outOfRange (found : Found) (wanted : String)
  /-- A list that ends before all fields have been given. -/
  | wrongLength (length : Nat) (wanted : String) (fields : Nat)
  | unknownVariant (name : String) (known : List String)
  | missingField (name : String)
  | duplicateField (name : String)
  /-- A value that its own type refuses, with the type's reason. -/
  | refused (reason : String)
  deriving DecidableEq, Repr

/-- A name between backquotes. -/
def ticked (name : String) : String :=
  "`" ++ name ++ "`"

/-- The alternatives that a message offers. -/
def oneOf : List String → String
  | [] => "there are no variants"
  | [a] => "expected " ++ ticked a
  | [a, b] => "expected " ++ ticked a ++ " or " ++ ticked b
  | names => "expected one of " ++ ", ".intercalate (names.map ticked)

/-- The wording of an error. -/
def Error.message : Error → String
  | malformed fault => fault.message
  | wrongType found wanted =>
      "invalid type: " ++ found.text ++ ", expected " ++ wanted
  | outOfRange found wanted =>
      "invalid value: " ++ found.text ++ ", expected " ++ wanted
  | wrongLength length wanted fields =>
      "invalid length " ++ toString length ++ ", expected " ++ wanted ++ " with "
        ++ toString fields ++ (if fields = 1 then " element" else " elements")
  | unknownVariant name known =>
      "unknown variant " ++ ticked name ++ ", " ++ oneOf known
  | missingField name => "missing field " ++ ticked name
  | duplicateField name => "duplicate field " ++ ticked name
  | refused reason => reason

end Json
end ReplicatedLog
