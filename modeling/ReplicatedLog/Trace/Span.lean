import ReplicatedLog.Trace.Level
import ReplicatedLog.Trace.Node

/-!
# Spans and events

An event is something that happened; a span is a stretch of time in which it
happened.  A span begins inside the span that is entered at that time, so spans
form paths, and it keeps the node context under which it began.  The node of a
span without a context of its own is that of the nearest span around it.
-/

namespace ReplicatedLog
namespace Trace

/-- The value of a field. -/
inductive FieldValue
  /-- A text that is quoted in plain lines. -/
  | text (s : String)
  /-- A text that stands for itself. -/
  | shown (s : String)
  | number (n : Int)
  deriving DecidableEq, Repr

/-- Fields with their names. -/
abbrev Fields := List (String × FieldValue)

/-- Something that happened. -/
structure Event where
  level : Level
  target : String
  message : String
  fields : Fields
  deriving DecidableEq, Repr

/-- What a span is in itself. -/
structure SpanData where
  name : String
  level : Level
  target : String
  fields : Fields
  /-- The context under which the span began. -/
  node : Option NodeContext
  deriving DecidableEq, Repr

/-- A span with the spans around it. -/
inductive Span
  | root (d : SpanData)
  | child (d : SpanData) (parent : Span)
  deriving DecidableEq, Repr

namespace Span

/-- A span inside another, if there is one. -/
def inside (d : SpanData) : Option Span → Span
  | none => root d
  | some parent => child d parent

/-- What the span is in itself. -/
def data : Span → SpanData
  | root d => d
  | child d _ => d

/-- The span and those around it, the innermost first. -/
def scope : Span → List SpanData
  | root d => [d]
  | child d parent => d :: parent.scope

/-- The node of a span: its own context, or that of the nearest span around it that has one. -/
def node (s : Span) : Option NodeContext :=
  s.scope.findSome? SpanData.node

end Span

end Trace
end ReplicatedLog
