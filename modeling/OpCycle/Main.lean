import OpCycle.Cli.Render
import OpCycle.Document.Json

/-! # The command line
Reads the files that the arguments name, runs the program on them, and prints what it leaves behind. -/

namespace OpCycle.Cli

/-- Puts the document that `arg` names into `directory`, if it can be read. -/
def loadDocument (directory : Directory) (arg : String) : IO Directory := do
  try
    let bytes ← IO.FS.readBinFile arg
    pure (directory.add arg (Document.ofText bytes.data.toList))
  catch _ => pure directory

/-- Prints `s` to `stream`, and flushes it. -/
def printText (stream : IO.FS.Stream) (s : Text) : IO Unit := do
  stream.write ⟨s.toArray⟩
  stream.flush

/-- The room that an address space of 64 bits leaves: `2 ^ 58` strings in a vector, `2 ^ 62` bytes in a string. -/
def Room.addressSpace : Room := ⟨Nat.pow 2 58, Nat.pow 2 62⟩

end OpCycle.Cli

/-- Runs `Cli.run` on the arguments of the process, with the documents that they name. -/
def main (args : List String) : IO UInt32 := do
  let directory ← args.foldlM OpCycle.Cli.loadDocument ∅
  let outcome := OpCycle.Cli.run directory (args.map OpCycle.Text.ofString) (.words .addressSpace)
  OpCycle.Cli.printText (← IO.getStdout) outcome.output
  OpCycle.Cli.printText (← IO.getStderr) outcome.errors
  pure outcome.code.toUInt32
