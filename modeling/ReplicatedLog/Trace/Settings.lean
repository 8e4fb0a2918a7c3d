import ReplicatedLog.Json.Value

/-!
# Settings of the tracing output

Which events are told, and how: on a console, in lines of JSON or in plain lines,
and in a file.  There are four presets; an environment may ask for a level, for
plain lines and for a directory of files.

* **JSON:** an optional part may be missing or null, and the extra directives may
  be missing; everything else has to be there.  In the list form only the
  directives may be missing.
-/

namespace ReplicatedLog
namespace Trace

/-- When a new file is begun. -/
inductive Rotation
  | daily
  | hourly
  | never
  deriving DecidableEq, Repr

/-- How and to what depth the console tells. -/
structure ConsoleSettings where
  isEnabled : Bool := true
  /-- Whether lines are plain rather than JSON. -/
  isPlain : Bool := false
  /-- Whether plain lines have colours. -/
  isColoured : Bool := false
  /-- The threshold of the console alone. -/
  level : Option String := none
  deriving DecidableEq, Repr

/-- Where files are written. -/
structure FileSettings where
  directory : String := "./logs"
  stem : String := "cmdlog"
  rotation : Rotation := .daily
  /-- How many files are kept. -/
  maxFiles : Option Nat := some 7
  deriving DecidableEq, Repr

/-- What lines of JSON show. -/
structure LineSettings where
  /-- Whether the fields of an event stand at the top. -/
  isFlat : Bool := true
  showsSpans : Bool := true
  showsCurrentSpan : Bool := true
  showsThread : Bool := false
  showsPlace : Bool := true
  deriving DecidableEq, Repr

/-- The settings of the tracing output. -/
structure Settings where
  defaultLevel : String := "info"
  /-- Directives over the default level. -/
  directives : List String := []
  console : ConsoleSettings := {}
  file : Option FileSettings := none
  lines : LineSettings := {}
  deriving DecidableEq, Repr

namespace Settings

section Presets

/-- Everything worth debugging, in plain lines with colours. -/
def development : Settings where
  defaultLevel := "debug"
  console := { isPlain := true, isColoured := true, level := some "debug" }

/-- Warnings alone. -/
def testing : Settings where
  defaultLevel := "warn"
  console := { level := some "warn" }

/-- Files in a directory, and nothing on the console. -/
def production (directory : String) : Settings where
  console := { isEnabled := false }
  file := some { directory, maxFiles := some 30 }

end Presets

section Environment

/-- The console with plain lines, if the environment asks for them. -/
def consoleFor (format : Option String) (c : ConsoleSettings) : ConsoleSettings :=
  if format = some "pretty" then { c with isPlain := true, isColoured := true } else c

/-- The settings that an environment asks for. -/
def ofEnvironment (env : String → Option String) : Settings :=
  let defaults : Settings := {}
  { defaultLevel := (env "CMDLOG_LOG_LEVEL").getD defaults.defaultLevel
    console := consoleFor (env "CMDLOG_LOG_FORMAT") defaults.console
    file := (env "CMDLOG_LOG_DIR").map fun directory => { directory } }

end Environment

section Updates

/-- Adds a directive. -/
def withDirective (s : Settings) (directive : String) : Settings :=
  { s with directives := s.directives ++ [directive] }

/-- Sets the default level. -/
def withLevel (s : Settings) (level : String) : Settings :=
  { s with defaultLevel := level }

/-- Turns the console on or off. -/
def withConsole (s : Settings) (isEnabled : Bool) : Settings :=
  { s with console := { s.console with isEnabled } }

/-- Sets where files are written. -/
def withFile (s : Settings) (file : FileSettings) : Settings :=
  { s with file := some file }

end Updates

section Writing

open Json

/-- The name of a rotation. -/
def rotationName : Rotation → String
  | .daily => "Daily"
  | .hourly => "Hourly"
  | .never => "Never"

/-- A value that may be missing. -/
def orNull {α : Type} (write : α → Value) : Option α → Value
  | none => .null
  | some a => write a

/-- The JSON form of the console's settings. -/
def consoleToJson (c : ConsoleSettings) : Value :=
  .object [("enabled", .truth c.isEnabled), ("pretty", .truth c.isPlain),
    ("ansi", .truth c.isColoured), ("level", orNull .string c.level)]

/-- The JSON form of the files' settings. -/
def fileToJson (f : FileSettings) : Value :=
  .object [("directory", .string f.directory), ("prefix", .string f.stem),
    ("rotation", .string (rotationName f.rotation)),
    ("max_files", orNull (fun n => .number (.whole n)) f.maxFiles)]

/-- The JSON form of the lines' settings. -/
def linesToJson (l : LineSettings) : Value :=
  .object [("flatten_events", .truth l.isFlat), ("include_spans", .truth l.showsSpans),
    ("include_current_span", .truth l.showsCurrentSpan),
    ("include_thread_info", .truth l.showsThread), ("include_location", .truth l.showsPlace)]

/-- The JSON form of the settings. -/
def toJson (s : Settings) : Value :=
  .object [("default_level", .string s.defaultLevel),
    ("directives", .list (s.directives.map .string)), ("console", consoleToJson s.console),
    ("file", orNull fileToJson s.file), ("jsonl", linesToJson s.lines)]

end Writing

section Reading

open Json

/-- The console's settings that have been read. -/
structure ConsoleFields where
  isEnabled : Option Bool := none
  isPlain : Option Bool := none
  isColoured : Option Bool := none
  level : Option (Option String) := none

/-- The four fields of the console's settings. -/
def consoleLayout : Layout ConsoleFields ConsoleSettings where
  typeName := "ConsoleConfig"
  fields :=
    [ { name := "enabled", isSet := (·.isEnabled.isSome), mayBeCutOff := false
        read := fun s => do return { s with isEnabled := some (← truth) } },
      { name := "pretty", isSet := (·.isPlain.isSome), mayBeCutOff := false
        read := fun s => do return { s with isPlain := some (← truth) } },
      { name := "ansi", isSet := (·.isColoured.isSome), mayBeCutOff := false
        read := fun s => do return { s with isColoured := some (← truth) } },
      { name := "level", isSet := (·.level.isSome), mayBeCutOff := false
        read := fun s => do return { s with level := some (← nullable string) } } ]
  start := {}
  build s := do
    let isEnabled ← required "enabled" s.isEnabled
    let isPlain ← required "pretty" s.isPlain
    let isColoured ← required "ansi" s.isColoured
    return { isEnabled, isPlain, isColoured, level := s.level.getD none }

/-- The files' settings that have been read. -/
structure FileFields where
  directory : Option String := none
  stem : Option String := none
  rotation : Option Rotation := none
  maxFiles : Option (Option Nat) := none

/-- Reads the text of a path. -/
def path : Parser String := do
  let b ← peekOr .endInValue
  if b = Ascii.quote then string else mismatch "path string"

/-- Rotations by their names. -/
def rotations : List (String × Rotation) :=
  [Rotation.daily, .hourly, .never].map fun r => (rotationName r, r)

/-- The four fields of the files' settings. -/
def fileLayout : Layout FileFields FileSettings where
  typeName := "FileConfig"
  fields :=
    [ { name := "directory", isSet := (·.directory.isSome), mayBeCutOff := false
        read := fun s => do return { s with directory := some (← path) } },
      { name := "prefix", isSet := (·.stem.isSome), mayBeCutOff := false
        read := fun s => do return { s with stem := some (← string) } },
      { name := "rotation", isSet := (·.rotation.isSome), mayBeCutOff := false
        read := fun s => do return { s with rotation := some (← variant rotations) } },
      { name := "max_files", isSet := (·.maxFiles.isSome), mayBeCutOff := false
        read := fun s => do return { s with maxFiles := some (← nullable count) } } ]
  start := {}
  build s := do
    let directory ← required "directory" s.directory
    let stem ← required "prefix" s.stem
    let rotation ← required "rotation" s.rotation
    return { directory, stem, rotation, maxFiles := s.maxFiles.getD none }

/-- The lines' settings that have been read. -/
structure LineFields where
  isFlat : Option Bool := none
  showsSpans : Option Bool := none
  showsCurrentSpan : Option Bool := none
  showsThread : Option Bool := none
  showsPlace : Option Bool := none

/-- The five fields of the lines' settings. -/
def lineLayout : Layout LineFields LineSettings where
  typeName := "JsonlConfig"
  fields :=
    [ { name := "flatten_events", isSet := (·.isFlat.isSome), mayBeCutOff := false
        read := fun s => do return { s with isFlat := some (← truth) } },
      { name := "include_spans", isSet := (·.showsSpans.isSome), mayBeCutOff := false
        read := fun s => do return { s with showsSpans := some (← truth) } },
      { name := "include_current_span", isSet := (·.showsCurrentSpan.isSome)
        mayBeCutOff := false
        read := fun s => do return { s with showsCurrentSpan := some (← truth) } },
      { name := "include_thread_info", isSet := (·.showsThread.isSome), mayBeCutOff := false
        read := fun s => do return { s with showsThread := some (← truth) } },
      { name := "include_location", isSet := (·.showsPlace.isSome), mayBeCutOff := false
        read := fun s => do return { s with showsPlace := some (← truth) } } ]
  start := {}
  build s := do
    let isFlat ← required "flatten_events" s.isFlat
    let showsSpans ← required "include_spans" s.showsSpans
    let showsCurrentSpan ← required "include_current_span" s.showsCurrentSpan
    let showsThread ← required "include_thread_info" s.showsThread
    let showsPlace ← required "include_location" s.showsPlace
    return { isFlat, showsSpans, showsCurrentSpan, showsThread, showsPlace }

/-- The settings that have been read. -/
structure Fields where
  defaultLevel : Option String := none
  directives : Option (List String) := none
  console : Option ConsoleSettings := none
  file : Option (Option FileSettings) := none
  lines : Option LineSettings := none

/-- The five fields of the settings. -/
def layout : Layout Fields Settings where
  typeName := "LogConfig"
  fields :=
    [ { name := "default_level", isSet := (·.defaultLevel.isSome), mayBeCutOff := false
        read := fun s => do return { s with defaultLevel := some (← string) } },
      { name := "directives", isSet := (·.directives.isSome), mayBeCutOff := true
        read := fun s => do return { s with directives := some (← listOf string) } },
      { name := "console", isSet := (·.console.isSome), mayBeCutOff := false
        read := fun s => do return { s with console := some (← consoleLayout.read) } },
      { name := "file", isSet := (·.file.isSome), mayBeCutOff := false
        read := fun s => do return { s with file := some (← nullable fileLayout.read) } },
      { name := "jsonl", isSet := (·.lines.isSome), mayBeCutOff := false
        read := fun s => do return { s with lines := some (← lineLayout.read) } } ]
  start := {}
  build s := do
    let defaultLevel ← required "default_level" s.defaultLevel
    let console ← required "console" s.console
    let lines ← required "jsonl" s.lines
    return {
      defaultLevel, console, lines
      directives := s.directives.getD []
      file := s.file.getD none }

/-- Reads settings from a document. -/
def ofJson (document : Bytes) : Except Json.Error Settings :=
  decode layout.read document

end Reading

end Settings

end Trace
end ReplicatedLog
