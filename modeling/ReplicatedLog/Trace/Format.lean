import ReplicatedLog.Json.Value
import ReplicatedLog.Text.Quoted
import ReplicatedLog.Trace.Settings
import ReplicatedLog.Trace.Span

/-!
# Lines about events

An event is told in one line, either an object of JSON or plain text.

* **JSON:** level, target, the fields of the event, and the spans around it.  The
  time, the place in the program and the thread are not part of the model; where
  a line shows them, `true` stands for them.  Threads have numbers and no names.
* **Plain:** time, level, the spans from the outermost in, target, message and
  fields.  `TIME` stands for the time.  A message cannot carry the control
  characters that steer a terminal: they are shown as escapes.  In colour, the
  time, the target and the signs are dim, the names of fields are slanted, spans
  are bold and levels have colours of their own.
-/

namespace ReplicatedLog
namespace Trace

open Json (Value)

section JsonLines

/-- A whole number in JSON. -/
def numberToJson : Int → Value
  | .ofNat n => .number (.whole n)
  | .negSucc n => .number (.negative (n + 1))

/-- The value of a field in JSON. -/
def FieldValue.toJson : FieldValue → Value
  | text s => .string s
  | shown s => .string s
  | number n => numberToJson n

/-- Fields in JSON. -/
def fieldsToJson (fields : Fields) : List (String × Value) :=
  fields.map fun (name, v) => (name, v.toJson)

/-- A span in JSON. -/
def SpanData.toJson (d : SpanData) : Value :=
  .object (fieldsToJson d.fields ++ [("name", .string d.name)])

/-- A member that a line may show. -/
def shownIf (isShown : Bool) (name : String) (v : Value) : List (String × Value) :=
  if isShown then [(name, v)] else []

/-- The fields of an event, the message among them. -/
def Event.members (e : Event) (isFlat : Bool) : List (String × Value) :=
  let fields := ("message", .string e.message) :: fieldsToJson e.fields
  if isFlat then fields else [("fields", .object fields)]

/-- The spans around an event, given from the innermost out. -/
def spanMembers (l : LineSettings) : List SpanData → List (String × Value)
  | [] => []
  | d :: outer =>
      shownIf l.showsCurrentSpan "span" d.toJson
        ++ shownIf l.showsSpans "spans" (.list ((d :: outer).reverse.map SpanData.toJson))

/-- The line about an event in JSON. -/
def Event.toJson (l : LineSettings) (scope : List SpanData) (e : Event) : Value :=
  .object ([("timestamp", .truth true), ("level", .string e.level.name)]
    ++ e.members l.isFlat
    ++ [("target", .string e.target)]
    ++ shownIf l.showsPlace "filename" (.truth true)
    ++ shownIf l.showsPlace "line_number" (.truth true)
    ++ spanMembers l scope
    ++ shownIf l.showsThread "threadId" (.truth true))

end JsonLines

section PlainLines

/-- How a part of a plain line is set off. -/
inductive Style
  | bold
  | dim
  | slanted
  | colour (l : Level)

/-- The number of a style in the escape sequence that turns it on. -/
def Style.code : Style → String
  | bold => "1"
  | dim => "2"
  | slanted => "3"
  | colour .error => "31"
  | colour .warn => "33"
  | colour .info => "32"
  | colour .debug => "34"
  | colour .trace => "35"

/-- A part of a line in a style, where lines have styles at all. -/
def styled (isColoured : Bool) (style : Style) (part : String) : String :=
  if isColoured then "\x1b[" ++ style.code ++ "m" ++ part ++ "\x1b[0m" else part

/-- How a message shows a character. -/
def harmless (c : Char) : List Char :=
  match c.toNat with
  | 0x1B => "\\x1b".toList
  | 0x07 => "\\x07".toList
  | 0x08 => "\\x08".toList
  | 0x0C => "\\x0c".toList
  | 0x7F => "\\x7f".toList
  | n =>
      if 0x80 ≤ n && n ≤ 0x9F then "\\u\x7b".toList ++ Nat.toDigits 16 n ++ ['}']
      else [c]

/-- The text of a message. -/
def messageText (message : String) : String :=
  String.ofList (message.toList.flatMap harmless)

/-- The text of a value. -/
def FieldValue.plain : FieldValue → String
  | text s => Text.quote s
  | shown s => s
  | number n => toString n

/-- A field with its name. -/
def fieldText (isColoured : Bool) (name : String) (v : FieldValue) : String :=
  styled isColoured .slanted name ++ styled isColoured .dim "=" ++ v.plain

/-- Fields with their names. -/
def fieldTexts (isColoured : Bool) (fields : Fields) : List String :=
  fields.map fun (name, v) => fieldText isColoured name v

/-- A span in a plain line. -/
def SpanData.plain (isColoured : Bool) (d : SpanData) : String :=
  let fields :=
    if d.fields.isEmpty then ""
    else
      styled isColoured .bold "\x7b" ++ " ".intercalate (fieldTexts isColoured d.fields)
        ++ styled isColoured .bold "\x7d"
  styled isColoured .bold d.name ++ fields ++ styled isColoured .dim ":"

/-- The spans around an event, given from the innermost out. -/
def spansText (isColoured : Bool) : List SpanData → String
  | [] => ""
  | scope => String.join (scope.reverse.map (SpanData.plain isColoured)) ++ " "

/-- The name of a level, all of one width. -/
def levelText (l : Level) : String :=
  String.ofList (List.replicate (5 - l.name.length) ' ') ++ l.name

/-- The plain line about an event. -/
def Event.plain (isColoured : Bool) (scope : List SpanData) (e : Event) : String :=
  styled isColoured .dim "TIME" ++ " "
    ++ styled isColoured (.colour e.level) (levelText e.level) ++ " "
    ++ spansText isColoured scope
    ++ styled isColoured .dim e.target ++ styled isColoured .dim ":" ++ " "
    ++ " ".intercalate (messageText e.message :: fieldTexts isColoured e.fields)

end PlainLines

end Trace
end ReplicatedLog
