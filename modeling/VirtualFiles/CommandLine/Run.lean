import VirtualFiles.Awb
import VirtualFiles.CommandLine.Command
import VirtualFiles.CommandLine.Failure
import VirtualFiles.CommandLine.Listing
import VirtualFiles.Emulator.Host
import VirtualFiles.FileSystem.FileCursor

/-!
# Running commands

A command reads the file system, leaves it as it is or changed, prints lines and may fail.
What it printed before it failed stays printed. The time that it took is not known here, so a
line about it is left open.

## Main definitions

* `Line` — a line of output
* `Outcome` — the lines, the failure and the files after a command
* `Command.run` — runs a command
-/

namespace VirtualFiles.CommandLine

/-- A line of output. -/
inductive Line
  | text (content : String)
  /-- The line that says how long the work took. -/
  | elapsed
  deriving DecidableEq, Repr

/-- The line, given the time that the work took. -/
def Line.render (time : String) : Line → String
  | .text content => content
  | .elapsed => "Done in " ++ time ++ "."

/-- The end of a command. -/
structure Outcome where
  lines : List Line := []
  failure : Option Failure := none
  files : FileSystem

namespace Outcome

/-- A command that printed lines and changed nothing. -/
def printed (fs : FileSystem) (lines : List String) : Outcome :=
  { lines := lines.map .text, files := fs }

/-- A command that failed before it printed or changed anything. -/
def failed (fs : FileSystem) (failure : Failure) : Outcome :=
  { failure := some failure, files := fs }

/-- The exit code. -/
def exitCode (o : Outcome) : Nat := if o.failure.isSome then 1 else 0

/-- Everything that was printed, given the time that the work took. -/
def output (o : Outcome) (time : String) : String :=
  String.join (o.lines.map fun line => line.render time ++ "\n")

end Outcome

namespace Command

/-- The header that a file holds; none is empty. -/
def readHeader (fs : FileSystem) : Option Path → Except Failure Bytes
  | none => .ok []
  | some path => (fs.contentOf path).mapError fun kind => .readHeader path (.bare kind)

/-- The builder that answers every call with the same container. -/
def always (container : Container) : Builder := fun _ _ host => (.ok container, host)

/-- The virtual file of blocks and a header. All paths are accepted. -/
def composeFile (fs : FileSystem) (blocks : List Block) (header : Bytes) (alignment : Nat)
    (output : Path) : Except Failure VirtualFile :=
  let emulator : Emulator := { extension := none, alignment }
  let host : Host := { files := fs }
  (host.create emulator (always { blocks, header }) ⟨output, output, output.display⟩).1.mapError
    (.compose output)

/-- What is printed before a file is written. -/
def announcement (output : Path) (file : VirtualFile) : Line :=
  .text ("Composing " ++ output.display ++ " (" ++ toString file.length ++ " bytes)...")

/-- What is printed after a file that was written. -/
def completion (written : Nat) : List Line :=
  [.text ("Dump complete (" ++ toString written ++ " bytes)."), .elapsed]

/-- Writes the composed file to its place. -/
def writeFile (fs : FileSystem) (output : Path) (quiet : Bool) (file : VirtualFile) : Outcome :=
  let dumped := file.stream.dump fs output
  let before := if quiet then [] else [announcement output file]
  match dumped.result with
  | .ok written =>
    let after := if quiet then [] else completion written
    { lines := before ++ after, files := dumped.files }
  | .error cause =>
    { lines := before, failure := some (.dump output cause), files := dumped.files }

/-- Lays out blocks and a header into one file. -/
def runCompose (fs : FileSystem) (blocks : List Block) (header : Option Path) (alignment : Nat)
    (output : Path) (quiet : Bool) : Outcome :=
  let composed : Except Failure VirtualFile := do
    let headerBytes ← readHeader fs header
    composeFile fs blocks headerBytes alignment output
  match composed with
  | .ok file => writeFile fs output quiet file
  | .error failure => .failed fs failure

/-- Lists the placements of a layout. -/
def runPlan (fs : FileSystem) (blocks : List Block) (headerLength alignment : Nat) : Outcome :=
  match Plan.compute blocks headerLength alignment with
  | .ok layout => .printed fs (Listing.plan layout)
  | .error cause => .failed fs (.plan cause)

/-- Says whether a file is an AWB audio bank. -/
def runProbe (fs : FileSystem) (path : Path) : Outcome :=
  match FileCursor.open? fs path with
  | .error cause => .failed fs (.openFile path cause)
  | .ok file =>
    match (Awb.isAwb (FileCursor.seekable fs) file).1 with
    | .ok isAwb => .printed fs (Listing.probe path isAwb)
    | .error cause => .failed fs (.probe path cause)

/-- Shows the header of an entry of an archive. -/
def runPakEntry (map : Pak.Mapping) (fs : FileSystem) (path : Path) (offset : Nat)
    (version : Pak.Version) : Outcome :=
  match Pak.readEntry map fs path offset version with
  | .ok header => .printed fs (Listing.pakEntry path header)
  | .error cause => .failed fs (.pakEntry path cause)

/-- Runs a command on a system that maps files into memory in this way. -/
def run (command : Command) (map : Pak.Mapping) (fs : FileSystem) : Outcome :=
  match command with
  | .compose blocks header alignment output quiet =>
    runCompose fs blocks header alignment output quiet
  | .plan blocks headerLength alignment => runPlan fs blocks headerLength alignment
  | .probe path => runProbe fs path
  | .pakEntry path offset version => runPakEntry map fs path offset version

end Command

end VirtualFiles.CommandLine
