/-
The program: it reads the file that its arguments name, and prints.
-/
import WalkFilter.CommandLine

open WalkFilter CommandLine

/-- The bytes of a file, if it can be read. -/
def bytesOf (path : String) : IO (Option ByteArray) := do
  try
    return some (← IO.FS.readBinFile path)
  catch _ =>
    return none

/-- A notice on one line. -/
def noticeLine (n : Notice) : String :=
  n.severity.name ++ " " ++ n.message
    ++ String.join (n.values.map fun v => " " ++ v.1 ++ "=" ++ v.2.compact)

def main (args : List String) : IO UInt32 := do
  let order := order args
  let content ← match order.file? with
    | some path => bytesOf path
    | none => pure none
  let outcome := order.outcome content
  IO.print outcome.output
  let verbose := match order with
    | .answer s _ => s.verbose
    | _ => false
  for n in outcome.log do
    if verbose || n.severity ≠ .debug then IO.eprintln (noticeLine n)
  for complaint in outcome.complaint do
    IO.eprintln complaint
  return outcome.exitCode
