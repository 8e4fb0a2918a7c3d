/-!
# Parts of a text

Texts taken apart at a separator or into lines, and texts in one case.
-/

namespace ReplicatedLog
namespace Text

/-- The parts of a text between the separators, one more than there are separators. -/
def partsAt (separator : Char) : List Char → List (List Char)
  | [] => [[]]
  | c :: cs =>
      if c = separator then [] :: partsAt separator cs
      else match partsAt separator cs with
        | [] => [[c]]
        | part :: parts => (c :: part) :: parts

/-- A line without a carriage return at its end. -/
def withoutReturn (line : List Char) : List Char :=
  if line.getLast? = some '\r' then line.dropLast else line

/-- The lines that the parts between line feeds make.  Every part but the last one has an end, which
may begin with a carriage return; the last one is a line if there is anything in it. -/
def linesOfParts : List (List Char) → List (List Char)
  | [] => []
  | [last] => if last.isEmpty then [] else [last]
  | line :: next :: parts => withoutReturn line :: linesOfParts (next :: parts)

/-- The lines of a text, without their ends. -/
def lines (text : List Char) : List (List Char) :=
  linesOfParts (partsAt '\n' text)

/-- A text with its ASCII letters in lower case. -/
def lowerCase (text : List Char) : List Char :=
  text.map Char.toLower

end Text
end ReplicatedLog
