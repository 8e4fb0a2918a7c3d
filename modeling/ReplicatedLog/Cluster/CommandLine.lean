import ReplicatedLog.Cluster.Scenario
import ReplicatedLog.Text.Decimal

/-!
# The command line

The words of a command line name a scenario and its sizes.  The name comes first,
the sizes follow it in any order, each at most once; a size that is not given has
a default of the scenario.
-/

namespace ReplicatedLog
namespace CommandLine

/-- A scenario that is to be run. -/
inductive Order
  | converge (nodes commands : Nat)
  | restart (nodes commands : Nat)
  | interrupt (nodes : Nat)
  deriving DecidableEq, Repr

/-- The sizes that have been given. -/
structure Sizes where
  nodes : Option Nat := none
  commands : Option Nat := none
  deriving DecidableEq, Repr

section Reading

/-- Takes in one size under its name. -/
def Sizes.take? (s : Sizes) (name : String) (n : Nat) : Option Sizes :=
  if name = "--nodes" ∨ name = "-n" then
    if s.nodes.isNone then some { s with nodes := some n } else none
  else if name = "--commands" ∨ name = "-c" then
    if s.commands.isNone then some { s with commands := some n } else none
  else none

/-- Reads names with their sizes. -/
def readSizes? (s : Sizes) : List String → Option Sizes
  | [] => some s
  | [_] => none
  | name :: size :: rest => do
      let n ← Text.readNatUpTo Text.maxWord64 size.toList
      readSizes? (← s.take? name n) rest

/-- Reads the words of a command line. -/
def read? : List String → Option Order
  | [] => none
  | name :: rest => do
      let s ← readSizes? {} rest
      match name with
      | "converge" => return .converge (s.nodes.getD 3) (s.commands.getD 100)
      | "restart" => return .restart (s.nodes.getD 3) (s.commands.getD 100)
      | "interrupt" => if s.commands.isSome then none else return .interrupt (s.nodes.getD 2)
      | _ => none

end Reading

section Running

/-- Runs a scenario. -/
def Order.run : Order → Except Problem Scenario.Report
  | converge nodes commands => Scenario.run nodes commands (Scenario.converge nodes commands)
  | restart nodes commands => Scenario.run nodes commands (Scenario.restart nodes commands)
  | interrupt nodes => Scenario.run nodes 1 (Scenario.interrupt nodes)

/-- What is told of a scenario that did not succeed. -/
def failureText : Problem → String
  | .failure message [] => "Error: " ++ message
  | .failure message causes =>
      "Error: " ++ message ++ "\n\nCaused by:\n"
        ++ "\n".intercalate (causes.map ("    " ++ ·))
  | _ => "Error: the scenario did not come to an end"

/-- How the command line is used. -/
def usage : String :=
  "Usage: (converge | restart) [--nodes N] [--commands N] | interrupt [--nodes N]"

end Running

end CommandLine
end ReplicatedLog
