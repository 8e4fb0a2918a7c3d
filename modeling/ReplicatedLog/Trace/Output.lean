import ReplicatedLog.Trace.Capture
import ReplicatedLog.Trace.Format
import ReplicatedLog.Trace.Run

/-!
# The tracing output

From settings to what is told of a traced program.

* **Filter:** the filter that the environment names is taken if it can be read;
  otherwise the default level is, and has to be readable.  The extra directives
  are added to it, each of which has to be readable.
* **Console:** hears what the filter admits down to a threshold of its own, and
  sees only those spans that the threshold admits.
* **File:** hears all that the filter admits, in lines of JSON.
-/

namespace ReplicatedLog
namespace Trace

/-- Why there is no output. -/
inductive SetupError
  | invalidFilter (text : String)
  | fileOutput (reason : String)
  | alreadyInitialized
  deriving DecidableEq, Repr

/-- What the wording of an error begins with, the same for all errors of its kind. -/
def SetupError.summary : SetupError → String
  | invalidFilter _ => "Invalid log filter"
  | fileOutput _ => "Failed to open log output"
  | alreadyInitialized => "A global subscriber is already set"

/-- Where files may be made, and the filter that the environment names. -/
structure Surroundings where
  filter : Option String := none
  /-- Whether a directory can be made. -/
  canMake : String → Bool := fun _ => true
  /-- Whether the output of the whole process is set up already. -/
  isInitialized : Bool := false

/-- An output that is set up. -/
structure Output where
  settings : Settings
  filter : Filter
  /-- The threshold of the console, if there is one. -/
  console : Option Threshold
  deriving DecidableEq, Repr

namespace Output

section Setup

/-- The threshold of the console. -/
def consoleThreshold (c : ConsoleSettings) : Except SetupError Threshold :=
  match c.level with
  | none => .ok (.upTo .trace)
  | some level =>
      match Threshold.parse? level.toList with
      | some t => .ok t
      | none => .error (.invalidFilter level)

/-- The filter before the extra directives. -/
def baseFilter (s : Settings) (named : Option String) : Except SetupError Filter :=
  match named.bind Filter.parse? with
  | some f => .ok f
  | none =>
      match Filter.parse? s.defaultLevel with
      | some f => .ok f
      | none => .error (.invalidFilter s.defaultLevel)

/-- Adds a directive in text form to a filter. -/
def addDirective (f : Filter) (directive : String) : Except SetupError Filter :=
  match Directive.parse? directive.toList with
  | some d => .ok (f.add d)
  | none => .error (.invalidFilter directive)

/-- Sets an output up. -/
def build (s : Settings) (around : Surroundings) : Except SetupError Output := do
  let base ← baseFilter s around.filter
  let filter ← s.directives.foldlM addDirective base
  let console ←
    if s.console.isEnabled then some <$> consoleThreshold s.console else pure none
  match s.file with
  | some file =>
      if !around.canMake file.directory then throw (.fileOutput file.directory)
  | none => pure ()
  return { settings := s, filter, console }

/-- Sets the output of the whole process up. -/
def initialize? (s : Settings) (around : Surroundings) : Except SetupError Output := do
  let output ← build s around
  if around.isInitialized then throw .alreadyInitialized
  return output

end Setup

section Files

/-- The date in the name of a file, with `#` for every digit. -/
def datePattern : Rotation → Option String
  | .daily => some "####-##-##"
  | .hourly => some "####-##-##-##"
  | .never => none

/-- The name of the file that is written, with `#` for every digit of the date. -/
def fileName (f : FileSettings) : String :=
  match datePattern f.rotation with
  | none => f.stem ++ ".log"
  | some date => (if f.stem = "" then "" else f.stem ++ ".") ++ date ++ ".log"

end Files

section Telling

/-- The spans around an event that a threshold admits, the innermost first. -/
def visibleScope (t : Threshold) (r : Report) : List SpanData :=
  ((r.span.map Span.scope).getD []).filter fun d => t.admits d.level

/-- A line with its end. -/
def endLine (line : Bytes) : Bytes :=
  line ++ [Ascii.newline]

/-- The line of a report in JSON. -/
def jsonLine (o : Output) (t : Threshold) (r : Report) : Bytes :=
  endLine (r.event.toJson o.settings.lines (visibleScope t r)).render

/-- The plain line of a report. -/
def plainLine (o : Output) (t : Threshold) (r : Report) : Bytes :=
  endLine (Bytes.ofString (r.event.plain o.settings.console.isColoured (visibleScope t r)))

/-- The lines on the console. -/
def consoleLines (o : Output) (reports : List Report) : List Bytes :=
  match o.console with
  | none => []
  | some t =>
      let line := if o.settings.console.isPlain then o.plainLine t else o.jsonLine t
      (reports.filter fun r => t.admits r.event.level).map line

/-- The output on the console. -/
def captured (o : Output) (reports : List Report) : Capture :=
  ({} : Capture).writeAll (o.consoleLines reports)

/-- The output in the file, under its name. -/
def written (o : Output) (reports : List Report) : Option (String × Capture) :=
  o.settings.file.map fun f =>
    (fileName f, ({} : Capture).writeAll (reports.map (o.jsonLine (.upTo .trace))))

end Telling

end Output

end Trace
end ReplicatedLog
