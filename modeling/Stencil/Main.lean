import Stencil.CommandLine.Run

/-!
The command line program: reads files, writes the output, and reports on standard
error.
-/

namespace Stencil.CommandLine

/-- The text of a file, unless it cannot be read. -/
def readFile? (path : String) : IO (Option String) := do
  try
    return some (← IO.FS.readFile path)
  catch _ =>
    return none

/-- A log event on a line of its own. -/
def logLine (event : Event) : String :=
  let fields := event.fields.map fun (name, value) => s!" {name}={value.compact}"
  s!"{event.level.name} {event.message}{String.join fields}"

def logOf : Exit → List Event
  | .success _ log | .failure _ log => log
  | .misuse _ => []

end Stencil.CommandLine

open Stencil.CommandLine in
def main (arguments : List String) : IO UInt32 := do
  let exit ← run readFile? arguments
  for event in logOf exit do
    IO.eprintln (logLine event)
  IO.print exit.output
  if let some report := exit.report? then
    IO.eprintln report
  if let .misuse cause := exit then
    IO.eprintln s!"error: {cause.message}"
  return exit.code.toUInt32
