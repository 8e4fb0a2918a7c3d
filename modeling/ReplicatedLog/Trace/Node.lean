/-!
# Node contexts

Several nodes may run side by side, so what they tell has to say which node it
comes from.  A guard sets the current context and keeps the one before it, which
comes back when the guard is dropped.  Guards may be dropped in any order.
-/

namespace ReplicatedLog
namespace Trace

/-- The identity of a node. -/
structure NodeContext where
  node : String
  /-- What tells one life of the node from another. -/
  instanceId : String
  deriving DecidableEq, Repr

/-- The current context, and the guards that are alive. -/
structure Contexts where
  current : Option NodeContext := none
  /-- The context that each guard keeps, the oldest guard first. -/
  guards : List (Option NodeContext) := []
  deriving DecidableEq, Repr

namespace Contexts

/-- Sets the context under a new guard. -/
def push (c : Contexts) (node : NodeContext) : Contexts :=
  { current := some node, guards := c.guards ++ [c.current] }

/-- Drops a guard: the context that it keeps comes back. -/
def dropAt (c : Contexts) (i : Nat) : Contexts :=
  match c.guards[i]? with
  | none => c
  | some previous => { current := previous, guards := c.guards.eraseIdx i }

/-- Does something under a context of its own. -/
def within {α : Type} (c : Contexts) (node : NodeContext) (f : Contexts → α) : α × Contexts :=
  let inner := c.push node
  (f inner, inner.dropAt c.guards.length)

/-- The name of the current node. -/
def currentNode (c : Contexts) : Option String :=
  c.current.map NodeContext.node

/-- The instance of the current node. -/
def currentInstance (c : Contexts) : Option String :=
  c.current.map NodeContext.instanceId

end Contexts

end Trace
end ReplicatedLog
