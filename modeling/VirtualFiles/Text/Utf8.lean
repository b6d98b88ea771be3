import VirtualFiles.Bytes

/-!
# UTF-8 in byte strings that may be ill-formed

Paths and names are byte strings. Most of them are UTF-8, but nothing enforces it, so
text is read off a byte string as an alternation of well-formed runs and ill-formed
groups. An ill-formed group is a *maximal* start of some well-formed sequence, or a
single byte that starts none; it never swallows a byte that could begin a character.

The reader takes one byte at a time. While it is inside a sequence it holds the bytes
read so far and, for each byte still missing, the range that byte has to lie in.

## Main definitions

* `Utf8.Token` — a character, or an ill-formed group
* `Utf8.State` — the reader, one byte at a time
* `Utf8.tokens` — a byte string as a sequence of tokens
* `Utf8.Chunk`, `Utf8.chunks` — a run of characters with the ill-formed group that ends
  it, if any
* `Utf8.lossy` — the text with each ill-formed group shown as U+FFFD
* `Utf8.encode` — the bytes of a text
-/

namespace VirtualFiles.Utf8

/-- The bytes of a text. -/
def encode (text : List Char) : Bytes := text.flatMap String.utf8EncodeChar

/-- The bytes of a string. -/
def encodeString (text : String) : Bytes := encode text.toList

/-- A closed range of byte values. -/
structure ByteRange where
  low : UInt8
  high : UInt8
  deriving DecidableEq, Repr

namespace ByteRange

/-- Does `b` lie in the range? -/
def contains (r : ByteRange) (b : UInt8) : Bool := r.low ≤ b && b ≤ r.high

/-- The continuation bytes. -/
def continuation : ByteRange := ⟨0x80, 0xBF⟩

end ByteRange

/-- The ranges of the bytes that have to follow `b`, or `none` if `b` begins no sequence
of two or more bytes. The second byte is restricted where it would otherwise allow an
overlong form, a surrogate or a value past U+10FFFF. -/
def following? (b : UInt8) : Option (List ByteRange) :=
  if b < 0xC2 then none
  else if b ≤ 0xDF then some [.continuation]
  else if b = 0xE0 then some [⟨0xA0, 0xBF⟩, .continuation]
  else if b = 0xED then some [⟨0x80, 0x9F⟩, .continuation]
  else if b ≤ 0xEF then some [.continuation, .continuation]
  else if b = 0xF0 then some [⟨0x90, 0xBF⟩, .continuation, .continuation]
  else if b ≤ 0xF3 then some [.continuation, .continuation, .continuation]
  else if b = 0xF4 then some [⟨0x80, 0x8F⟩, .continuation, .continuation]
  else none

/-- The code point that a complete sequence stands for: the payload bits of the first
byte, then six bits of every other byte. -/
def codePoint : Bytes → Nat
  | [] => 0
  | b :: rest =>
    let payload :=
      if b < 0x80 then b.toNat
      else if b < 0xE0 then b.toNat % 0x20
      else if b < 0xF0 then b.toNat % 0x10
      else b.toNat % 0x08
    rest.foldl (fun value c => value * 0x40 + c.toNat % 0x40) payload

/-- One step of reading: a character, or a group of bytes that is no character. -/
inductive Token
  | char (c : Char)
  | junk (bytes : Bytes)
  deriving DecidableEq, Repr

/-- Where the reader stands: the bytes of an unfinished sequence, and the ranges of the
bytes still missing from it. Between sequences both are empty. -/
structure State where
  held : Bytes
  missing : List ByteRange
  deriving DecidableEq, Repr

namespace State

/-- Between two sequences. -/
def idle : State := ⟨[], []⟩

/-- Reads `b` between two sequences. -/
def start (b : UInt8) : List Token × State :=
  if b < 0x80 then ([.char (Char.ofNat b.toNat)], idle)
  else
    match following? b with
    | none => ([.junk [b]], idle)
    | some ranges => ([], ⟨[b], ranges⟩)

/-- Reads `b`. A byte out of range ends the unfinished sequence as an ill-formed group and
is then read again as a beginning. -/
def step (state : State) (b : UInt8) : List Token × State :=
  match state.missing with
  | [] => start b
  | range :: more =>
    if range.contains b then
      if more.isEmpty then ([.char (Char.ofNat (codePoint (state.held ++ [b])))], idle)
      else ([], ⟨state.held ++ [b], more⟩)
    else
      -- `b` may begin a character of its own
      let (tokens, next) := start b
      (.junk state.held :: tokens, next)

/-- What is left at the end of the text: an unfinished sequence is ill-formed. -/
def finish (state : State) : List Token :=
  if state.held.isEmpty then [] else [.junk state.held]

end State

/-- The tokens of a text, read from a state on. -/
def scan (state : State) : Bytes → List Token
  | [] => state.finish
  | b :: rest =>
    let (tokens, next) := state.step b
    tokens ++ scan next rest

/-- A byte string as a sequence of characters and ill-formed groups. -/
def tokens (bytes : Bytes) : List Token := scan .idle bytes

/-- A run of characters and the ill-formed group after it, which is empty only at the end
of the text. -/
structure Chunk where
  valid : List Char
  invalid : Bytes
  deriving DecidableEq, Repr

/-- Gathers the characters before each ill-formed group into one run. -/
def gather : List Token → List Chunk
  | [] => []
  | .junk bytes :: rest => ⟨[], bytes⟩ :: gather rest
  | .char c :: rest =>
    match gather rest with
    | [] => [⟨[c], []⟩]
    | chunk :: chunks => { chunk with valid := c :: chunk.valid } :: chunks

/-- A byte string as runs of characters, each with the ill-formed group that ends it. -/
def chunks (bytes : Bytes) : List Chunk := gather (tokens bytes)

/-- The character that stands for an ill-formed group. -/
def replacement : Char := '\uFFFD'

/-- The text of a byte string, one replacement character per ill-formed group. -/
def lossyChars (bytes : Bytes) : List Char :=
  (tokens bytes).map fun
    | .char c => c
    | .junk _ => replacement

/-- The text of a byte string, one replacement character per ill-formed group. -/
def lossy (bytes : Bytes) : String := String.ofList (lossyChars bytes)

example : chunks [0x41, 0xC3, 0x41] = [⟨['A'], [0xC3]⟩, ⟨['A'], []⟩] := by decide +kernel

example : lossyChars [0xF0, 0x9F, 0x98, 0x5A, 0xC3, 0xA9] = ['\uFFFD', 'Z', 'é'] := by
  decide +kernel

end VirtualFiles.Utf8
