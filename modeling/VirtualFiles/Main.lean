import VirtualFiles.CommandLine.Reading
import VirtualFiles.CommandLine.Run

/-!
# The program

Reads the files that a command names, runs the command on them, prints what it printed and
writes back what it changed.

## Main definitions

* `main` — the program
-/

namespace VirtualFiles.CommandLine

/-- The files with the content of one more file of the disk, if it can be read. -/
def load (fs : FileSystem) (path : Path) : IO FileSystem := do
  try
    let content ← IO.FS.readBinFile path.display
    return fs.store path content.toList
  catch _ => return fs

/-- Writes a file to the disk if its content changed. -/
def save (before after : FileSystem) (path : Path) : IO Unit := do
  let content := (after.contentOf path).toOption
  if content ≠ (before.contentOf path).toOption then
    if let some dir := path.parent? then
      if dir.bytes ≠ [] then IO.FS.createDirAll dir.display
    if let some bytes := content then
      IO.FS.writeBinFile path.display ⟨bytes.toArray⟩

/-- Runs a command on the files of the disk. Gives the exit code. -/
def execute (command : Command) : IO UInt32 := do
  let started ← IO.monoMsNow
  let files ← command.paths.foldlM load .initial
  let outcome := command.run .regularFiles files
  command.paths.forM (save files outcome.files)
  IO.print (outcome.output (Listing.seconds ((← IO.monoMsNow) - started)))
  if let some failure := outcome.failure then
    IO.eprintln ("Error: " ++ "\n  caused by: ".intercalate failure.trace)
  return outcome.exitCode.toUInt32

end VirtualFiles.CommandLine

/-- Runs the command that the arguments spell. -/
def main (arguments : List String) : IO UInt32 := do
  match VirtualFiles.CommandLine.Invocation.parse arguments with
  | .ok invocation => VirtualFiles.CommandLine.execute invocation.command
  | .error e =>
    IO.eprintln e.message
    return e.exitCode.toUInt32
