import PatternTree.CommandLine.Session

/-!
The command line program.
-/

namespace PatternTree

/-- All bytes of the standard input. -/
def readInput : IO (List UInt8) := do
  let stdin ← IO.getStdin
  let mut bytes := ByteArray.empty
  repeat
    let chunk ← stdin.read 65536
    if chunk.isEmpty then break
    bytes := bytes ++ chunk
  return bytes.toList

end PatternTree

def main (arguments : List String) : IO UInt32 := do
  match PatternTree.CommandLine.Request.ofArguments arguments with
  | .error e =>
    IO.eprintln ("error: " ++ e.message)
    return 2
  | .ok request =>
    let input ← if request.readsInput then PatternTree.readInput else pure []
    let outcome := request.run input
    IO.print outcome.output
    IO.eprint outcome.errors
    return outcome.exit.toUInt32
