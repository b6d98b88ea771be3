import VirtualFiles.Text.Hex
import VirtualFiles.Text.PrintTable
import VirtualFiles.Text.Utf8

/-!
# Quoted text

Descriptions of values show texts and paths between double quotes. Characters that could
be mistaken for the quotation's own, that merge with their neighbour or that show nothing
are escaped; single quotes are not. In a path, which may be no text at all, bytes that belong
to no character are shown as two hexadecimal digits.

## Main definitions

* `Quoted.merges`, `Quoted.isInvisible` — the characters that are shown by their code point
* `Quoted.text` — a text between quotes
* `Quoted.path` — a byte string between quotes
-/

namespace VirtualFiles.Quoted

/-- A character by its code point. -/
def byCodePoint (c : Char) : String := "\\u\x7b" ++ Hex.lower c.toNat ++ "\x7d"

/-- The halfwidth sound marks. They extend the character before them like other marks do, but
take up a place of their own. -/
def soundMarks : List (Nat × Nat) := [(0xFF9E, 0xFF9F)]

/-- Is the character drawn onto the one before it? -/
def merges (c : Char) : Bool :=
  CodeRange.holds PrintTable.graphemeExtendRanges c && !CodeRange.holds soundMarks c

/-- Is nothing drawn for the character? -/
def isInvisible (c : Char) : Bool :=
  CodeRange.holds PrintTable.unprintableRanges c || CodeRange.holds PrintTable.fillerRanges c

/-- A character inside double quotes. -/
def char (c : Char) : String :=
  if c = '\x00' then "\\0"
  else if c = '\t' then "\\t"
  else if c = '\r' then "\\r"
  else if c = '\n' then "\\n"
  else if c = '\\' then "\\\\"
  else if c = '\x22' then "\\\""
  else if merges c || isInvisible c then byCodePoint c
  else String.singleton c

/-- A text between double quotes. -/
def text (chars : List Char) : String := "\"" ++ String.join (chars.map char) ++ "\""

/-- A byte that belongs to no character. -/
def byte (b : UInt8) : String :=
  "\\x" ++ (if b < 0x10 then "0" else "") ++ Hex.upper b.toNat

/-- A run of characters and the ill-formed group after it, inside double quotes. -/
def chunk (c : Utf8.Chunk) : String :=
  String.join (c.valid.map char) ++ String.join (c.invalid.map byte)

/-- A byte string between double quotes. -/
def path (bytes : Bytes) : String :=
  "\"" ++ String.join ((Utf8.chunks bytes).map chunk) ++ "\""

example : path [0x27, 0xE3, 0x85, 0xA4, 0x80] = "\"'\\u\x7b3164\x7d\\x80\"" := by decide +kernel

end VirtualFiles.Quoted
