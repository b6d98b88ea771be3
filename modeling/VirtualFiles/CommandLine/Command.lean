import VirtualFiles.Layout.Plan
import VirtualFiles.Pak.Header

/-!
# Commands

## Main definitions

* `CommandName` — the names of the commands
* `Command` — a command with its arguments
* `Invocation` — a command and how much it is to tell
-/

namespace VirtualFiles.CommandLine

/-- The names of the commands. -/
inductive CommandName
  | compose
  | plan
  | probe
  | pakEntry
  deriving DecidableEq, Repr

namespace CommandName

/-- All commands. -/
def all : List CommandName := [.compose, .plan, .probe, .pakEntry]

/-- The word that names the command. -/
def text : CommandName → String
  | .compose => "compose"
  | .plan => "plan"
  | .probe => "probe"
  | .pakEntry => "pak-entry"

/-- The command that a word names. -/
def find? (word : List Char) : Option CommandName := all.find? (·.text.toList == word)

end CommandName

/-- A command with its arguments. -/
inductive Command
  /-- Lays out blocks and a header into one file. -/
  | compose (blocks : List Block) (header : Option Path) (alignment : Nat) (output : Path)
      (quiet : Bool)
  /-- Lists the placements of a layout without opening any file. -/
  | plan (blocks : List Block) (headerLength alignment : Nat)
  /-- Says whether a file is an AWB audio bank. -/
  | probe (file : Path)
  /-- Shows the header of an entry of a PAK archive. -/
  | pakEntry (file : Path) (offset : Nat) (version : Pak.Version)
  deriving DecidableEq, Repr

/-- The paths of the files that a command reads or writes. -/
def Command.paths : Command → List Path
  | .compose blocks header _ output _ => blocks.map (·.path) ++ header.toList ++ [output]
  | .plan .. => []
  | .probe file => [file]
  | .pakEntry file _ _ => [file]

/-- A command and how much it is to tell about its work. -/
structure Invocation where
  verbosity : Nat
  command : Command
  deriving DecidableEq, Repr

end VirtualFiles.CommandLine
