import VirtualFiles.CommandLine.Command

/-!
# Arguments of commands

Every command takes some options, and some commands take a file. An option has a long name
and in some cases a short one; it either takes a value or stands for itself.

## Main definitions

* `Argument` — the options and the file
* `Argument.takesValue` — is there a value to it?
* `CommandName.options`, `CommandName.places` — what a command takes
* `UsageError` — what is wrong with a command line
-/

namespace VirtualFiles.CommandLine

/-- The options of all commands, and the file that a command is about. -/
inductive Argument
  | verbose
  | help
  | block
  | header
  | headerLength
  | alignment
  | output
  | quiet
  | offset
  | v2
  | file
  deriving DecidableEq, Repr

namespace Argument

/-- The name after two dashes. The file has none. -/
def long? : Argument → Option String
  | .verbose => some "verbose"
  | .help => some "help"
  | .block => some "block"
  | .header => some "header"
  | .headerLength => some "header-len"
  | .alignment => some "alignment"
  | .output => some "output"
  | .quiet => some "quiet"
  | .offset => some "offset"
  | .v2 => some "v2"
  | .file => none

/-- The name after one dash, if there is one. -/
def short? : Argument → Option Char
  | .verbose => some 'v'
  | .help => some 'h'
  | .output => some 'o'
  | .quiet => some 'q'
  | _ => none

/-- Does the argument have a value? -/
def takesValue : Argument → Bool
  | .verbose | .help | .quiet | .v2 => false
  | _ => true

/-- The argument in messages. -/
def display (a : Argument) : String :=
  match a.long? with
  | some name => "--" ++ name
  | none => "<FILE>"

/-- The option of that long name among those known. -/
def findLong? (known : List Argument) (name : List Char) : Option Argument :=
  known.find? fun a => a.long?.any (·.toList == name)

/-- The option of that short name among those known. -/
def findShort? (known : List Argument) (name : Char) : Option Argument :=
  known.find? (·.short? == some name)

end Argument

namespace CommandName

/-- The options that stand before a command and after it. -/
def sharedOptions : List Argument := [.verbose, .help]

/-- The options after a command. -/
def options : CommandName → List Argument
  | .compose => [.block, .header, .alignment, .output, .quiet] ++ sharedOptions
  | .plan => [.block, .headerLength, .alignment] ++ sharedOptions
  | .probe => sharedOptions
  | .pakEntry => [.offset, .v2] ++ sharedOptions

/-- The words after a command that are no options. -/
def places : CommandName → List Argument
  | .probe | .pakEntry => [.file]
  | .compose | .plan => []

end CommandName

/-- What is wrong with a command line. A request for help is reported in the same way. -/
inductive UsageError
  | displayHelp
  /-- There is nothing on the command line. -/
  | nothingGiven
  | unknownArgument (word : List Char)
  | invalidSubcommand (word : List Char)
  | missingSubcommand
  | missingRequired
  /-- An argument that may be given once is given again. -/
  | repeated (argument : Argument)
  /-- An option that takes no value has one. -/
  | unneededValue (argument : Argument)
  /-- The value of an argument is missing or empty. -/
  | noValue (argument : Argument)
  | invalidValue (argument : Argument) (value : List Char) (reason : String)
  deriving DecidableEq, Repr

namespace UsageError

/-- The failure in words. -/
def message : UsageError → String
  | .displayHelp => "usage: [-v] compose | plan | probe | pak-entry"
  | .nothingGiven => "usage: [-v] compose | plan | probe | pak-entry"
  | .unknownArgument word => "unexpected argument '" ++ String.ofList word ++ "'"
  | .invalidSubcommand word => "unrecognized command '" ++ String.ofList word ++ "'"
  | .missingSubcommand => "a command is required"
  | .missingRequired => "a required argument is missing"
  | .repeated argument => "'" ++ argument.display ++ "' cannot be used more than once"
  | .unneededValue argument => "'" ++ argument.display ++ "' takes no value"
  | .noValue argument => "'" ++ argument.display ++ "' needs a value"
  | .invalidValue argument value reason =>
    "invalid value '" ++ String.ofList value ++ "' for '" ++ argument.display ++ "': " ++ reason

/-- The exit code. Asking for help is no failure. -/
def exitCode : UsageError → Nat
  | .displayHelp => 0
  | _ => 2

end UsageError

end VirtualFiles.CommandLine
