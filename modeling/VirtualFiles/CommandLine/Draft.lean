import VirtualFiles.CommandLine.Argument
import VirtualFiles.CommandLine.BlockSpec

/-!
# Arguments read so far

The arguments of a command come in any order. A draft holds those that have been read. Blocks
add up, the option for more output is counted, and everything else may be given once; that is
checked before the value is looked at.

## Main definitions

* `Draft` — the arguments read so far
* `Draft.store` — an argument with its value
* `Draft.raise` — an option without a value
* `Draft.finish` — the command, if nothing is missing
-/

namespace VirtualFiles.CommandLine

/-- The arguments read so far. -/
structure Draft where
  blocks : List Block := []
  header : Option Path := none
  headerLength : Option Nat := none
  alignment : Option Nat := none
  output : Option Path := none
  quiet : Bool := false
  offset : Option Nat := none
  v2 : Bool := false
  file : Option Path := none
  /-- How often more output was asked for. -/
  verbose : Option Nat := none
  deriving DecidableEq, Repr

namespace Draft

/-- The path that a value spells. -/
def path (argument : Argument) (value : List Char) : Except UsageError Path :=
  if value = [] then .error (.noValue argument) else .ok ⟨Utf8.encode value⟩

/-- The number that a value spells. -/
def number (argument : Argument) (value : List Char) : Except UsageError Nat :=
  (Number.parse value).mapError fun e => .invalidValue argument value e.message

/-- The block that a value spells. -/
def block (argument : Argument) (value : List Char) : Except UsageError Block :=
  (BlockSpec.parse value).mapError fun e => .invalidValue argument value e.message

/-- The value of an argument that was not given before. -/
def once {α : Type} (argument : Argument) (before : Option α) (value : Except UsageError α) :
    Except UsageError (Option α) :=
  if before.isSome then .error (.repeated argument) else value.map some

/-- The most that more output is counted to. -/
def maxVerbosity : Nat := 255

/-- The draft with an argument that has a value. -/
def store (d : Draft) (argument : Argument) (value : List Char) : Except UsageError Draft :=
  match argument with
  | .block => do return { d with blocks := d.blocks ++ [← block .block value] }
  | .header => do return { d with header := ← once .header d.header (path .header value) }
  | .headerLength => do
    return { d with
      headerLength := ← once .headerLength d.headerLength (number .headerLength value) }
  | .alignment => do
    return { d with alignment := ← once .alignment d.alignment (number .alignment value) }
  | .output => do return { d with output := ← once .output d.output (path .output value) }
  | .offset => do return { d with offset := ← once .offset d.offset (number .offset value) }
  | .file => do return { d with file := ← once .file d.file (path .file value) }
  | .verbose | .help | .quiet | .v2 => .error (.unneededValue argument)

/-- The draft with an option that takes no value. -/
def raise (d : Draft) (argument : Argument) : Except UsageError Draft :=
  match argument with
  | .help => .error .displayHelp
  | .verbose => .ok { d with verbose := some (min maxVerbosity (d.verbose.getD 0 + 1)) }
  | .quiet => if d.quiet then .error (.repeated .quiet) else .ok { d with quiet := true }
  | .v2 => if d.v2 then .error (.repeated .v2) else .ok { d with v2 := true }
  | _ => .error (.noValue argument)

/-- The alignment of blocks where none is given. -/
def defaultAlignment : Nat := 0x800

/-- The command with the arguments of the draft. -/
def finish (d : Draft) (name : CommandName) : Except UsageError Command :=
  match name with
  | .compose =>
    match d.blocks, d.output with
    | block :: blocks, some output =>
      .ok (.compose (block :: blocks) d.header (d.alignment.getD defaultAlignment) output d.quiet)
    | _, _ => .error .missingRequired
  | .plan =>
    match d.blocks with
    | block :: blocks =>
      .ok (.plan (block :: blocks) (d.headerLength.getD 0) (d.alignment.getD defaultAlignment))
    | [] => .error .missingRequired
  | .probe =>
    match d.file with
    | some file => .ok (.probe file)
    | none => .error .missingRequired
  | .pakEntry =>
    match d.file with
    | some file => .ok (.pakEntry file (d.offset.getD 0) (if d.v2 then .v2 else .v1))
    | none => .error .missingRequired

end Draft

end VirtualFiles.CommandLine
