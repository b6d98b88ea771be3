import VirtualFiles.Extent
import VirtualFiles.Text.Blank

/-!
# Numbers on the command line

A number is written in decimal digits, or in hexadecimal ones after `0x` or `0X`. White
space around it is ignored, and one plus sign may stand before its digits. It has to be an
address. Digits are read from the left, and the first that cannot be taken decides what is
wrong: a character that is no digit is reported as such even where the number would have
become too large.

## Main definitions

* `NumberFault`, `NumberError` — what is wrong with a number
* `Number.digit?` — the value of a digit
* `Number.parse` — the number that a text spells
-/

namespace VirtualFiles.CommandLine

/-- What is wrong with the digits of a number. -/
inductive NumberFault
  | empty
  | invalidDigit
  | overflow
  deriving DecidableEq, Repr

/-- The fault in words. -/
def NumberFault.description : NumberFault → String
  | .empty => "cannot parse integer from empty string"
  | .invalidDigit => "invalid digit found in string"
  | .overflow => "number too large to fit in target type"

/-- A text that spells no number, without the blanks around it. -/
structure NumberError where
  text : List Char
  fault : NumberFault
  deriving DecidableEq, Repr

/-- The failure in words. -/
def NumberError.message (e : NumberError) : String :=
  "invalid number '" ++ String.ofList e.text ++ "': " ++ e.fault.description

namespace Number

/-- The value of a digit or letter, counting on from ten at `a`. -/
def alphanumeric? (c : Char) : Option Nat :=
  if '0' ≤ c ∧ c ≤ '9' then some (c.toNat - '0'.toNat)
  else if 'a' ≤ c ∧ c ≤ 'z' then some (c.toNat - 'a'.toNat + 10)
  else if 'A' ≤ c ∧ c ≤ 'Z' then some (c.toNat - 'A'.toNat + 10)
  else none

/-- The value of a digit to that radix. -/
def digit? (radix : Nat) (c : Char) : Option Nat := (alphanumeric? c).filter (· < radix)

/-- The number whose digits are those of `value` and then the given ones. -/
def appendDigits (radix value : Nat) : List Char → Except NumberFault Nat
  | [] => .ok value
  | c :: rest =>
    match digit? radix c with
    -- also where the number is about to become too large
    | none => .error .invalidDigit
    | some digit =>
      if value * radix + digit < addressSpace then appendDigits radix (value * radix + digit) rest
      else .error .overflow

/-- The number with those digits, after a plus sign or not. -/
def ofDigits (radix : Nat) (text : List Char) : Except NumberFault Nat :=
  match text with
  | [] => .error .empty
  | '+' :: [] => .error .invalidDigit
  | '+' :: digits => appendDigits radix 0 digits
  | digits => appendDigits radix 0 digits

/-- The radix that a text announces and what is left of the text. -/
def radixOf (text : List Char) : Nat × List Char :=
  match text with
  | '0' :: 'x' :: rest => (16, rest)
  | '0' :: 'X' :: rest => (16, rest)
  | _ => (10, text)

/-- The number that a text spells. -/
def parse (text : List Char) : Except NumberError Nat :=
  let trimmed := Blank.trim text
  let (radix, digits) := radixOf trimmed
  (ofDigits radix digits).mapError (⟨trimmed, ·⟩)

example : (parse " 0x+1F ".toList).toOption = some 31 := by decide +kernel

example : (parse "+0x1F".toList).toOption = none := by decide +kernel

end Number

end VirtualFiles.CommandLine
