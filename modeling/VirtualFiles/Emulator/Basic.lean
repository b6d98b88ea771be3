import VirtualFiles.Layout.Open
import VirtualFiles.Text.Lowercase

/-!
# Emulators

An emulator stands between a host and the files that the host opens. For a path with the
right extension it asks a container builder for a layout and serves the stream of that layout
in place of the file. Emulators that share a cache and a builder differ in their settings
only, so an emulator is its settings.

## Main definitions

* `Emulator` — the settings
* `Emulator.accepts` — does a path have the right extension?
* `BuildCall` — what a builder is asked for
* `CreateError` — why there is no emulated file
-/

namespace VirtualFiles

/-- The settings of an emulator. -/
structure Emulator where
  /-- The end of the paths that are emulated, in any case; without it all are. -/
  extension : Option String := some ".utoc"
  /-- The alignment of blocks. -/
  alignment : Nat := 0x800
  /-- The directory that gets a copy of every new file. -/
  dumpDirectory : Option Path := none
  deriving DecidableEq, Repr

namespace Emulator

/-- The path as text in lower case. -/
def lowercasePath (p : Path) : List Char := Lowercase.text (Utf8.lossyChars p.bytes)

/-- Does the path have the extension, in any case? -/
def accepts (e : Emulator) (p : Path) : Bool :=
  match e.extension with
  | none => true
  | some extension => (Lowercase.text extension.toList).isSuffixOf (lowercasePath p)

/-- A value that may be missing, as descriptions show it. -/
def describeOptional : Option String → String
  | some text => "Some(" ++ text ++ ")"
  | none => "None"

/-- The settings with their names. -/
def describeSettings (e : Emulator) : String :=
  Record.closed "EmulatorConfig"
    [("extension", describeOptional (e.extension.map fun text => Quoted.text text.toList)),
      ("alignment", toString e.alignment),
      ("dump_dir", describeOptional (e.dumpDirectory.map Path.describe))]

/-- The emulator on a cache with that many entries. -/
def describe (e : Emulator) (entries : Nat) : String :=
  Record.abridged "Emulator"
    [("cache_entries", toString entries), ("config", e.describeSettings)]

end Emulator

/-- What a container builder is asked for: the container that is to appear at `output`, made
from `source`. -/
structure BuildCall where
  source : Path
  output : Path
  route : String
  deriving DecidableEq, Repr

/-- Why there is no emulated file. -/
inductive CreateError
  | cacheConflict (path : Path)
  | buildFailed (path : Path) (message : String)
  | layout (path : Path) (cause : LayoutError)
  deriving DecidableEq

/-- The failure in words. -/
def CreateError.message : CreateError → String
  | .cacheConflict path => path.display ++ " is already being built or has been built"
  | .buildFailed path _ => "container builder failed for " ++ path.display
  | .layout path _ => "cannot lay out " ++ path.display

end VirtualFiles
