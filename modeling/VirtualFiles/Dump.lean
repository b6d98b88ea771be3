import VirtualFiles.FileSystem.BufferedWriter
import VirtualFiles.VirtualStream.Basic

/-!
# Writing a virtual stream to disk

A dump makes the missing directories, creates the target and copies the stream segment by
segment in pieces of at most 64 KiB through a buffered writer. Creating the target empties
it, also if the stream reads from it. A dump that fails leaves in the target what had been
written by then.

Whoever watches a dump learns when it starts, when it reaches a segment, when a piece has
been written and when all is done.

## Main definitions

* `DumpEvent`, `DumpError` — what a dump reports, and why it fails
* `Dump.chunkSize` — the size of the pieces
* `VirtualStream.dump` — writes a stream to a file
-/

namespace VirtualFiles

/-- A step of a dump, for whoever watches it. -/
inductive DumpEvent
  | started (path : Path) (total : Nat)
  | segment (extent : Extent) (kind : SegmentKind)
  | advanced (count : Nat)
  | completed (written : Nat)
  deriving DecidableEq

/-- Why a dump failed. -/
inductive DumpError
  | createDirectory (path : Path) (cause : IoError)
  | createFile (path : Path) (cause : IoError)
  | read (offset : Nat) (cause : ReadError)
  | unexpectedEnd (offset length : Nat)
  | write (path : Path) (cause : IoError)
  deriving DecidableEq

/-- The failure in words. -/
def DumpError.message : DumpError → String
  | .createDirectory path _ => "cannot create directory " ++ path.display
  | .createFile path _ => "cannot create file " ++ path.display
  | .read offset _ => "cannot read virtual offset " ++ Hex.address offset
  | .unexpectedEnd offset length =>
    "stream ended at " ++ Hex.address offset ++ " before its declared length " ++
      Hex.address length
  | .write path _ => "cannot write to " ++ path.display

/-- A dump in progress, or after its end. -/
structure Dump where
  files : FileSystem
  writer : BufferedWriter
  written : Nat := 0
  /-- What has been reported, first things first. -/
  events : List DumpEvent := []

namespace Dump

/-- The size of the pieces in which a stream is copied. -/
def chunkSize : Nat := 65536

/-- The dump after one more report. -/
def report (d : Dump) (event : DumpEvent) : Dump := { d with events := d.events ++ [event] }

/-- The dump after a step of its writer. -/
def after (d : Dump) (step : BufferedWriter.Step) : Dump :=
  { d with files := step.files, writer := step.writer }

/-- Writes a piece and reports it. -/
def writePiece (d : Dump) (path : Path) (bytes : Bytes) : Except DumpError Unit × Dump :=
  let step := d.writer.write d.files bytes
  match step.result with
  | .error kind => (.error (.write path (.bare kind)), d.after step)
  | .ok () =>
    (.ok (),
      { d.after step with written := d.written + bytes.length }.report (.advanced bytes.length))

/-- Copies the addresses from `offset` up to `stop`. -/
def copyUpTo (stream : VirtualStream) (path : Path) (stop offset : Nat) (d : Dump) :
    Except DumpError Unit × Dump :=
  if offset < stop then
    match stream.readAt d.files offset (min (stop - offset) chunkSize) with
    | .error cause => (.error (.read offset cause), d)
    -- every address below `stop` has a byte or a failure, so this case does not arise
    | .ok [] => (.error (.unexpectedEnd offset stream.length), d)
    | .ok (b :: bs) =>
      match d.writePiece path (b :: bs) with
      | (.ok (), next) => copyUpTo stream path stop (offset + (b :: bs).length) next
      | failed => failed
  else (.ok (), d)
termination_by stop - offset
decreasing_by
  simp only [List.length_cons]
  omega

/-- Copies the segments one after the other. -/
def copySegments (stream : VirtualStream) (path : Path) :
    List Segment → Dump → Except DumpError Unit × Dump
  | [], d => (.ok (), d)
  | s :: rest, d =>
    let reached := d.report (.segment s.extent s.kind)
    match copyUpTo stream path s.extent.stop s.extent.start reached with
    | (.ok (), next) => copySegments stream path rest next
    | failed => failed

/-- Copies the whole stream and hands the last bytes to the file. -/
def copyAll (stream : VirtualStream) (path : Path) (d : Dump) : Except DumpError Unit × Dump :=
  let started := d.report (.started path stream.length)
  match copySegments stream path stream.segments.toList started with
  | (.ok (), copied) =>
    let step := copied.writer.flush copied.files
    match step.result with
    | .ok () => (.ok (), (copied.after step).report (.completed copied.written))
    | .error kind => (.error (.write path (.bare kind)), copied.after step)
  | failed => failed

/-- The end of a dump: what it came to, the files after it and everything it reported. -/
structure Outcome where
  /-- The number of bytes written. -/
  result : Except DumpError Nat
  files : FileSystem
  events : List DumpEvent

end Dump

/-- Makes the directories above the target that are missing. A target without a directory
part needs none. -/
def Dump.prepare (fs : FileSystem) (path : Path) : Except DumpError Unit × FileSystem :=
  match path.parent? with
  | none => (.ok (), fs)
  | some dir =>
    if dir.bytes = [] then (.ok (), fs)
    else
      match fs.makeDirectories dir with
      | (.ok (), grown) => (.ok (), grown)
      | (.error kind, partly) => (.error (.createDirectory dir (.bare kind)), partly)

/-- Writes the whole stream to the file that the path names. -/
def VirtualStream.dump (stream : VirtualStream) (fs : FileSystem) (path : Path) : Dump.Outcome :=
  match Dump.prepare fs path with
  | (.error e, partly) => ⟨.error e, partly, []⟩
  | (.ok (), grown) =>
    match grown.create path with
    | .error kind => ⟨.error (.createFile path (.bare kind)), grown, []⟩
    | .ok (target, opened) =>
      let (result, d) := Dump.copyAll stream path { files := opened, writer := ⟨target, []⟩ }
      ⟨result.map fun _ => d.written, d.writer.close d.files, d.events⟩

end VirtualFiles
