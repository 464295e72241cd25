import SelectorTree.CommandLine.Run

/-!
# The program

Connects the command line with the file system and the standard streams.
-/

open SelectorTree

namespace SelectorTree.Main

def readFile (path : String) : IO (Except String String) := do
  try
    return .ok (← IO.FS.readFile path)
  catch error =>
    match error with
    | .noFileOrDirectory _ _ _ => return .error "No such file or directory (os error 2)"
    | other => return .error (toString other)

def readInput : IO String := do
  (← IO.getStdin).readToEnd

def surroundings : CommandLine.Surroundings IO := ⟨readFile, readInput, .offline⟩

end SelectorTree.Main

def main (arguments : List String) : IO UInt32 := do
  let outcome ← CommandLine.run SelectorTree.Main.surroundings arguments
  IO.print outcome.output
  IO.eprint outcome.messages
  return UInt32.ofNat outcome.code
