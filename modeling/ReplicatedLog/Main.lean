import ReplicatedLog.Cluster.CommandLine

/-!
# The program

Runs the scenario that the command line names and prints its report.
-/

open ReplicatedLog

/-- Prints the report of a scenario; a failure ends with code 1, a wrong use with code 2. -/
def main (args : List String) : IO UInt32 := do
  match CommandLine.read? args with
  | none =>
      IO.eprintln CommandLine.usage
      return 2
  | some order =>
      match order.run with
      | .ok report =>
          IO.print report.text
          return 0
      | .error problem =>
          IO.eprintln (CommandLine.failureText problem)
          return 1
