import ReplicatedLog.Trace.Filter
import ReplicatedLog.Trace.Span

/-!
# Traced programs

A program sets and drops node contexts, enters and leaves spans and reports
events.  What it tells depends on which levels of which targets are heard: a span
that is not heard is entered and left all the same, but nothing is inside it.

`Program.run` gives the context after every step and, in order, the events that
are heard, each with the span it happened in.
-/

namespace ReplicatedLog
namespace Trace

/-- An event with the span it happened in. -/
structure Report where
  event : Event
  span : Option Span
  deriving DecidableEq, Repr

/-- What a program does. -/
inductive Step
  | pushNode (node : NodeContext)
  /-- Drops the guard with an index, counted from the oldest. -/
  | dropNode (i : Nat)
  /-- Looks at the context inside a context of its own. -/
  | withNode (node : NodeContext)
  /-- Enters a span that shows the current context, if there is a guard. -/
  | enterNodeSpan
  | enterSpan (name target : String) (fields : Fields)
  | exitSpan
  | report (e : Event)
  | look
  deriving DecidableEq, Repr

/-- What a step shows. -/
inductive Sight
  /-- The context after the step. -/
  | context (c : Contexts)
  /-- The node seen inside a context. -/
  | inside (node : Option String)

/-- Which levels of which targets are heard. -/
abbrev Hearing := String → Level → Bool

namespace Program

/-- The contexts of a program, the spans it has entered and the events heard. -/
structure State where
  contexts : Contexts := {}
  /-- The spans entered, the innermost first; of one that is not heard only the place. -/
  entered : List (Option Span) := []
  /-- The events heard, the latest first. -/
  reports : List Report := []

namespace State

/-- The innermost span that is heard. -/
def currentSpan (s : State) : Option Span :=
  s.entered.findSome? id

/-- The span that begins now, under the current context, if it is heard. -/
def begin (hears : Hearing) (s : State) (name : String) (level : Level) (target : String)
    (fields : Fields) : Option Span :=
  let d : SpanData := { name, level, target, fields, node := s.contexts.current }
  if hears target level then some (Span.inside d s.currentSpan) else none

/-- Enters a span that begins now. -/
def enter (hears : Hearing) (s : State) (name target : String) (fields : Fields) : State :=
  { s with entered := s.begin hears name .info target fields :: s.entered }

end State

/-- The target of the spans that show a node. -/
def nodeTarget : String := "cmdlog_logging::context"

/-- The fields that show a node. -/
def nodeFields (node : NodeContext) : Fields :=
  [("node_id", .shown node.node), ("instance_id", .shown node.instanceId)]

/-- Enters the span that shows the current context; without a context it is not heard. -/
def enterNodeSpan (hears : Hearing) (s : State) : State :=
  if s.contexts.guards.isEmpty then s
  else
    match s.contexts.current with
    | some node => s.enter hears "node" nodeTarget (nodeFields node)
    | none => { s with entered := none :: s.entered }

/-- Performs a step. -/
def perform (hears : Hearing) (s : State) : Step → Sight × State
  | .withNode node =>
      let (seen, contexts) := s.contexts.within node Contexts.currentNode
      (.inside seen, { s with contexts })
  | step =>
      let s := after s step
      (.context s.contexts, s)
where
  /-- The state after a step. -/
  after (s : State) : Step → State
    | .pushNode node => { s with contexts := s.contexts.push node }
    | .dropNode i => { s with contexts := s.contexts.dropAt i }
    | .enterNodeSpan => enterNodeSpan hears s
    | .enterSpan name target fields => s.enter hears name target fields
    | .exitSpan => { s with entered := s.entered.tail }
    | .report e =>
        if hears e.target e.level then
          { s with reports := ⟨e, s.currentSpan⟩ :: s.reports }
        else s
    | .withNode _ => s
    | .look => s

/-- Performs steps in order: what they show, and the state after them. -/
def performAll (hears : Hearing) : State → List Step → List Sight × State
  | s, [] => ([], s)
  | s, step :: steps =>
      let (sight, s) := perform hears s step
      let (sights, s) := performAll hears s steps
      (sight :: sights, s)

/-- What the steps of a program show, and the events heard. -/
def run (hears : Hearing) (steps : List Step) : List Sight × List Report :=
  let (sights, s) := performAll hears {} steps
  (sights, s.reports.reverse)

end Program

end Trace
end ReplicatedLog
