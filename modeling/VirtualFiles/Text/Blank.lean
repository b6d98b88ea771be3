import VirtualFiles.Text.CodeRange

/-!
# Blank characters

White space at the ends of a number is not part of it. The blanks are the 25 characters
with the white-space property.

## Main definitions

* `Blank.isBlank` — is a character white space?
* `Blank.trim` — a text without the blanks at its two ends
-/

namespace VirtualFiles.Blank

/-- The white-space characters. -/
def ranges : List (Nat × Nat) :=
  [(0x09, 0x0D), (0x20, 0x20), (0x85, 0x85), (0xA0, 0xA0), (0x1680, 0x1680),
    (0x2000, 0x200A), (0x2028, 0x2029), (0x202F, 0x202F), (0x205F, 0x205F), (0x3000, 0x3000)]

/-- Is `c` white space? -/
def isBlank (c : Char) : Bool := CodeRange.holds ranges c

/-- The text without the blanks at its end. -/
def trimEnd (text : List Char) : List Char := (text.reverse.dropWhile isBlank).reverse

/-- The text without the blanks at its two ends. -/
def trim (text : List Char) : List Char := trimEnd (text.dropWhile isBlank)

example : trim [' ', '\u2003', '8', ' ', '1', '\n'] = ['8', ' ', '1'] := by decide +kernel

end VirtualFiles.Blank
