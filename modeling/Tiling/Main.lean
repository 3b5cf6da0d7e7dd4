import Tiling.Command.Report
import Tiling.Command.Roads
import Tiling.Command.Turned

/-!
The command line: `roads` covers a grid with the tiles of a catalog file, and `turned` covers one
with turned base tiles. Further arguments are those of the program.
-/

namespace Tiling.Command

/-- The bytes of the file at a path, if it can be read. -/
def readFile? (path : String) : IO (Option ByteArray) := do
  try
    return some (← IO.FS.readBinFile path)
  catch _ => return none

/-- Prints what a program printed and what is said of its end. -/
def Outcome.show {σ : Type} [Label σ] (outcome : Outcome σ) : IO UInt32 := do
  for line in outcome.lines do
    IO.println line
  match outcome.result with
  | .ok () => return 0
  | .error reason =>
    IO.eprintln reason.message
    return reason.code

/-- Runs the program with the file that its arguments name. -/
def runRoads (arguments : List String) : IO UInt32 := do
  let bytes ← match Roads.Settings.ofArguments arguments with
    | .ok settings => readFile? settings.catalog
    | .error _ => pure none
  (Roads.run (fun _ => bytes) arguments).show

end Tiling.Command

open Tiling.Command in
def main : List String → IO UInt32
  | "roads" :: arguments => runRoads arguments
  | "turned" :: arguments => (Turned.run arguments).show
  | _ => do
    IO.eprintln "the first argument is roads or turned"
    return 2
