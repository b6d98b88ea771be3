/-!
# Hexadecimal text

Addresses are shown with a `0x` mark and without leading zeros, in lower case in
messages and in upper case in listings.

## Main definitions

* `Hex.lower`, `Hex.upper` — the hexadecimal digits of a number
* `Hex.address` — a number as messages show it, such as `0x800`
-/

namespace VirtualFiles.Hex

/-- The hexadecimal digits of `n`, letters in lower case. -/
def lower (n : Nat) : String := String.ofList (Nat.toDigits 16 n)

/-- The hexadecimal digits of `n`, letters in upper case. -/
def upper (n : Nat) : String := String.ofList ((Nat.toDigits 16 n).map Char.toUpper)

/-- An address in a message: `0x` and the lower-case digits. -/
def address (n : Nat) : String := "0x" ++ lower n

example : address 2048 = "0x800" := by decide +kernel

end VirtualFiles.Hex
