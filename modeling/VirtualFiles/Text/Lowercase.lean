import VirtualFiles.Text.CaseTable

/-!
# Lower case

Full lower-casing of a text. Every character is mapped on its own, with two exceptions:
U+0130 becomes two characters, and a capital sigma becomes a final sigma at the end of a
word. A sigma ends a word if a letter with a case stands before it and none after it,
looking past the characters that a case context ignores.

## Main definitions

* `Lowercase.char` — the lower case of one character outside any context
* `Lowercase.endsWord` — does a sigma between these two contexts end a word?
* `Lowercase.text` — the lower case of a text
-/

namespace VirtualFiles.Lowercase

/-- Does `c` have a case? -/
def isCased (c : Char) : Bool := CodeRange.holds CaseTable.casedRanges c

/-- Does a case context look past `c`? -/
def isIgnorable (c : Char) : Bool := CodeRange.holds CaseTable.caseIgnorableRanges c

/-- The lower case of one character outside any context. -/
def char (c : Char) : List Char :=
  if c = '\u0130' then ['i', '\u0307']
  else
    match CaseTable.lowercaseRuns.find? (·.contains c.toNat) with
    | some run => [Char.ofNat (c.toNat + run.shift).toNat]
    | none => [c]

/-- Is the first character of `context` that is not ignorable a letter with a case? -/
def meetsCased (context : List Char) : Bool :=
  match context.dropWhile isIgnorable with
  | [] => false
  | c :: _ => isCased c

/-- Does a sigma end a word? `before` lists what precedes it, nearest first, and `after`
what follows it. -/
def endsWord (before after : List Char) : Bool :=
  meetsCased before && !meetsCased after

/-- The lower case of `c` between its two contexts. -/
def charIn (before : List Char) (c : Char) (after : List Char) : List Char :=
  if c = 'Σ' then [if endsWord before after then 'ς' else 'σ'] else char c

/-- The lower case of a text that follows `before`, nearest character first. -/
def textAfter (before : List Char) : List Char → List Char
  | [] => []
  | c :: rest => charIn before c rest ++ textAfter (c :: before) rest

/-- The lower case of a text. -/
def text (chars : List Char) : List Char := textAfter [] chars

example : text ['Α', 'Σ', '.', 'Σ', 'Α'] = ['α', 'σ', '.', 'σ', 'α'] := by decide +kernel

example : text ['Α', 'Σ', '/', 'Σ'] = ['α', 'ς', '/', 'σ'] := by decide +kernel

end VirtualFiles.Lowercase
