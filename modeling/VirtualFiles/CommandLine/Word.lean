/-!
# Words of a command line

What a word of a command line can be is seen from its dashes: `--` ends the options, `--name`
and `--name=value` are long options, `-abc` is a row of short ones, and everything else,
the single dash included, is a plain word.

## Main definitions

* `Word` — the four forms of a word
* `Word.ofText` — the form of a text
-/

namespace VirtualFiles.CommandLine

/-- A word by its form. -/
inductive Word
  | escape
  | long (name : List Char) (value : Option (List Char))
  | short (flags : List Char)
  | plain (text : List Char)
  deriving DecidableEq, Repr

namespace Word

/-- The name before the first equals sign and the value after it, if there is one. -/
def splitValue : List Char → List Char × Option (List Char)
  | [] => ([], none)
  | c :: rest =>
    if c = '=' then ([], some rest)
    else
      let (name, value) := splitValue rest
      (c :: name, value)

/-- The form of a text. -/
def ofText (text : List Char) : Word :=
  match text with
  | '-' :: '-' :: [] => .escape
  | '-' :: '-' :: rest =>
    let (name, value) := splitValue rest
    .long name value
  | '-' :: flag :: flags => .short (flag :: flags)
  | _ => .plain text

example : ofText "--a=b=c".toList = .long "a".toList (some "b=c".toList) := by decide +kernel

example : ofText "-".toList = .plain "-".toList := by decide +kernel

end Word

end VirtualFiles.CommandLine
