import VirtualFiles.CommandLine.Draft
import VirtualFiles.CommandLine.Word

/-!
# Reading a command line

A command line is read word by word. The value of an option may stand in the word after it,
and it is taken into account only when the next argument begins or the command line ends.
So of a bad value and a word that means nothing, the word is what is reported. Behind `--` all
words are plain.

The option for more output may stand before the command and after it. If it stands in both
places, the one after the command counts.

## Main definitions

* `Reading` — the arguments so far and the one whose value is still open
* `Reading.word` — one more word
* `Invocation.parse` — the invocation that a command line spells
-/

namespace VirtualFiles.CommandLine

/-- An argument that has not been taken into account yet, with its value if that has been
read. -/
structure Pending where
  argument : Argument
  value : Option (List Char)
  deriving DecidableEq, Repr

/-- The state of reading. -/
structure Reading where
  draft : Draft := {}
  pending : Option Pending := none
  /-- What the next words that are no options stand for. -/
  places : List Argument := []
  /-- Has there been a `--`? -/
  trailing : Bool := false
  deriving DecidableEq, Repr

namespace Reading

/-- Takes the open argument into account. -/
def settle (r : Reading) : Except UsageError Reading :=
  match r.pending with
  | none => .ok r
  | some ⟨argument, none⟩ => .error (.noValue argument)
  | some ⟨argument, some value⟩ => do
    return { r with draft := ← r.draft.store argument value, pending := none }

/-- An option that takes a value. The value may be attached to it. -/
def option (r : Reading) (argument : Argument) (attached : Option (List Char)) :
    Except UsageError Reading := do
  let settled ← r.settle
  match attached with
  | some value => return { settled with draft := ← settled.draft.store argument value }
  | none => return { settled with pending := some ⟨argument, none⟩ }

/-- An option that takes no value. -/
def flag (r : Reading) (argument : Argument) : Except UsageError Reading := do
  let settled ← r.settle
  return { settled with draft := ← settled.draft.raise argument }

/-- The value in the rest of a row of short options, with or without an equals sign. -/
def attachedTo : List Char → Option (List Char)
  | [] => none
  | '=' :: value => some value
  | value => some value

/-- A row of short options. -/
def flags (known : List Argument) (word : List Char) :
    List Char → Reading → Except UsageError Reading
  | [], r => .ok r
  | c :: rest, r =>
    match Argument.findShort? known c with
    | none => .error (.unknownArgument word)
    | some argument =>
      if argument.takesValue then r.option argument (attachedTo rest)
      else do flags known word rest (← r.flag argument)

/-- A word that is no option. -/
def place (r : Reading) (word : List Char) : Except UsageError Reading :=
  match r.places with
  -- the word is reported even if the open value is bad
  | [] => .error (.unknownArgument word)
  | argument :: places => do
    let settled ← r.settle
    return { settled with places, pending := some ⟨argument, some word⟩ }

/-- One more word after a command with those options. -/
def word (known : List Argument) (r : Reading) (word : List Char) : Except UsageError Reading :=
  if r.trailing then r.place word
  else
    match Word.ofText word with
    | .escape => .ok { r with trailing := true }
    | .long name value =>
      match Argument.findLong? known name with
      | none => .error (.unknownArgument word)
      | some argument =>
        if argument.takesValue then r.option argument value
        else if value.isSome then .error (.unneededValue argument)
        else r.flag argument
    | .short row => flags known word row r
    -- only a word without a dash is taken as the value of the option before it
    | .plain text =>
      match r.pending with
      | some ⟨argument, none⟩ => .ok { r with pending := some ⟨argument, some text⟩ }
      | _ => r.place text

end Reading

namespace Invocation

/-- The word that asks for help on the commands that follow it. -/
def helpWord : List Char := "help".toList

/-- Does the word name a command, or ask for help? -/
def isCommandWord (word : List Char) : Bool :=
  word == helpWord || (CommandName.find? word).isSome

/-- The arguments after a command, where `verbose` counts what stands before it. -/
def parseCommand (name : CommandName) (verbose : Option Nat) (words : List (List Char)) :
    Except UsageError Invocation := do
  let read ← words.foldlM (Reading.word name.options) { places := name.places }
  let settled ← read.settle
  let command ← settled.draft.finish name
  return ⟨(settled.draft.verbose.or verbose).getD 0, command⟩

/-- The words after the one that asks for help: at most one, which names a command. -/
def parseHelp : List (List Char) → UsageError
  | [] => .displayHelp
  | word :: rest =>
    if isCommandWord word then
      match rest with
      | [] => .displayHelp
      | next :: _ => .invalidSubcommand next
    else .invalidSubcommand word

/-- The words from the first option before the command on. -/
def parseFrom (r : Reading) : List (List Char) → Except UsageError Invocation
  | [] => .error (if r.draft.verbose.isSome then .missingSubcommand else .nothingGiven)
  | word :: rest =>
    if r.trailing then
      .error (if isCommandWord word then .unknownArgument word else .invalidSubcommand word)
    else if word = helpWord then .error (parseHelp rest)
    else
      match CommandName.find? word, Word.ofText word with
      | some name, _ => parseCommand name r.draft.verbose rest
      | none, .plain _ => .error (.invalidSubcommand word)
      | none, _ => do parseFrom (← r.word CommandName.sharedOptions word) rest

/-- The invocation that a command line spells. -/
def parse (words : List String) : Except UsageError Invocation :=
  parseFrom {} (words.map String.toList)

end Invocation

end VirtualFiles.CommandLine
