import VirtualFiles.CommandLine.Number
import VirtualFiles.Layout.Plan

/-!
# Blocks on the command line

A block is written as its path, its start and its length with colons between them. The last
two colons count, so the path may hold colons itself.

## Main definitions

* `BlockSpecError` — what is wrong with a block
* `BlockSpec.parse` — the block that a text spells
-/

namespace VirtualFiles.CommandLine

/-- What is wrong with the text of a block. -/
inductive BlockSpecError
  | malformed (text : List Char)
  | missingPath (text : List Char)
  | number (cause : NumberError)
  | lengthTooLarge (length : Nat)
  deriving DecidableEq, Repr

/-- The failure in words. -/
def BlockSpecError.message : BlockSpecError → String
  | .malformed text => "expected PATH:START:LEN, got '" ++ String.ofList text ++ "'"
  | .missingPath text => "missing path in '" ++ String.ofList text ++ "'"
  | .number cause => cause.message
  | .lengthTooLarge length => "length " ++ toString length ++ " is too large"

namespace BlockSpec

/-- The largest length of a block, `2 ^ 63 - 1`. -/
def maxLength : Nat := 0x7FFFFFFFFFFFFFFF

/-- What stands before and after the last colon. -/
def splitLast : List Char → Option (List Char × List Char)
  | [] => none
  | c :: rest =>
    match splitLast rest with
    | some (before, after) => some (c :: before, after)
    | none => if c = ':' then some ([], rest) else none

/-- The path, the start and the length that a text consists of. -/
def split (text : List Char) : Option (List Char × List Char × List Char) := do
  let (front, length) ← splitLast text
  let (path, start) ← splitLast front
  return (path, start, length)

/-- The block that a text spells. The length is looked at before the start. -/
def parse (text : List Char) : Except BlockSpecError Block :=
  match split text with
  | none => .error (.malformed text)
  | some (path, start, length) => do
    if path = [] then throw (.missingPath text)
    let length ← (Number.parse length).mapError .number
    if maxLength < length then throw (.lengthTooLarge length)
    let start ← (Number.parse start).mapError .number
    return { path := ⟨Utf8.encode path⟩, start, length }

end BlockSpec

end VirtualFiles.CommandLine
