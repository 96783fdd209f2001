import EcmaFront.Command.Run

/-!
# The command

Reads the arguments and files, and writes what the run shows and reports.
-/

namespace EcmaFront.Command

/-- Reads a file of the disk. -/
def readFromDisk (path : String) : IO (Except ReadError Text) := do
  try
    let bytes ← IO.FS.readBinFile path
    match String.fromUTF8? bytes with
    | some s => return .ok s.toList
    | none => return .error .notText
  catch
    | .noFileOrDirectory .. => return .error .notFound
    | e => return .error (.other (toString e))

end EcmaFront.Command

open EcmaFront in
def main (arguments : List String) : IO UInt32 := do
  let outcome ← Command.run Command.readFromDisk arguments
  IO.print outcome.output
  for line in outcome.reports do
    IO.eprintln line
  return outcome.exitCode.toUInt32
