/-!
# Bytes

Byte strings are lists of octets. This file holds the two operations that the rest
of the library needs on them beyond the list library: the window of a string that a
positional read returns, and little-endian words.

## Main definitions

* `Bytes` — a finite string of octets
* `Bytes.window` — at most `count` bytes from `offset` on
* `Bytes.littleEndian` / `Bytes.ofLittleEndian` — a number in four bytes, least
  significant first

## Main results

* `length_window` — a window is cut by the end of the string and by nothing else
* `window_split`, `window_append` — windows follow the places of a string, and of two strings
  one after the other
* `ofLittleEndian_littleEndian` — four bytes hold a number below `2 ^ 32`
* `littleEndian_ofLittleEndian` — and such a number has no other four bytes
-/

namespace VirtualFiles

/-- A finite string of octets. -/
abbrev Bytes := List UInt8

namespace Bytes

/-- The bytes of `bytes` at `offset`, `offset + 1`, …: `count` of them, or as many as
there are. -/
def window (bytes : Bytes) (offset count : Nat) : Bytes :=
  (bytes.drop offset).take count

theorem length_window (bytes : Bytes) (offset count : Nat) :
    (bytes.window offset count).length = min count (bytes.length - offset) := by
  simp [window]

theorem length_window_le (bytes : Bytes) (offset count : Nat) :
    (bytes.window offset count).length ≤ count := by
  rw [length_window]
  omega

section Window

variable {bytes first second : Bytes} {offset count k : Nat}

theorem length_window_of_le (h : offset + count ≤ bytes.length) :
    (bytes.window offset count).length = count := by
  rw [length_window]
  omega

@[simp] theorem window_zero_right : bytes.window offset 0 = [] := List.take_zero

@[simp] theorem window_zero_length : bytes.window 0 bytes.length = bytes := by
  simp [window]

theorem window_of_length_le (h : bytes.length ≤ offset) : bytes.window offset count = [] := by
  rw [window, List.drop_eq_nil_of_le h, List.take_nil]

/-- Windows at one offset are equal if they are cut at the same place. -/
theorem window_congr (h : min count (bytes.length - offset) = min k (bytes.length - offset)) :
    bytes.window offset count = bytes.window offset k := by
  rw [window, window, List.take_eq_take_iff, List.length_drop]
  exact h

theorem getElem?_window : (bytes.window offset count)[k]? =
    if k < count then bytes[offset + k]? else none := by
  simp only [window, List.getElem?_take, List.getElem?_drop]

/-- A window is the window of its first bytes, followed by the window of the rest. -/
theorem window_split (h : k ≤ count) :
    bytes.window offset count = bytes.window offset k ++ bytes.window (offset + k) (count - k) := by
  obtain ⟨rest, rfl⟩ := Nat.exists_eq_add_of_le h
  simp only [window, List.take_add, List.drop_drop, Nat.add_sub_cancel_left]

/-- The bytes of a window that lie in the first of two strings, and those that lie in the
second. -/
theorem window_append :
    (first ++ second).window offset count =
      first.window offset count ++
        second.window (offset - first.length) (count - (first.length - offset)) := by
  simp only [window, List.drop_append, List.take_append, List.length_drop]

theorem window_take (h : offset + count ≤ k) :
    window (bytes.take k) offset count = bytes.window offset count := by
  rw [window, List.drop_take, List.take_take, Nat.min_eq_left (by omega), window]

/-- A window of a window, as long as it does not reach the end of it. -/
theorem window_window {start : Nat} (h : offset + count ≤ k) :
    (bytes.window start k).window offset count = bytes.window (start + offset) count := by
  rw [window, window, List.drop_take, List.take_take, List.drop_drop, Nat.min_eq_left (by omega),
    window]

/-- A window that a first part of a string has in full is a window of the string. -/
theorem window_of_isPrefix (h : first <+: bytes)
    (hin : (first.window offset count).length = count) :
    bytes.window offset count = first.window offset count := by
  obtain ⟨second, rfl⟩ := h
  rw [length_window] at hin
  have hnone : count - (first.length - offset) = 0 := by omega
  rw [window_append, hnone, window_zero_right, List.append_nil]

end Window

/-- The four low base-256 digits of `n`, least significant first. -/
def littleEndian (n : Nat) : Bytes :=
  [UInt8.ofNat n, UInt8.ofNat (n / 0x100), UInt8.ofNat (n / 0x10000),
    UInt8.ofNat (n / 0x1000000)]

/-- The number whose base-256 digits are `bytes`, least significant first. -/
def ofLittleEndian : Bytes → Nat
  | [] => 0
  | b :: rest => b.toNat + 0x100 * ofLittleEndian rest

@[simp] theorem length_littleEndian (n : Nat) : (littleEndian n).length = 4 := rfl

theorem ofLittleEndian_littleEndian {n : Nat} (h : n < 0x100000000) :
    ofLittleEndian (littleEndian n) = n := by
  simp only [littleEndian, ofLittleEndian, UInt8.toNat_ofNat']
  omega

theorem littleEndian_ofLittleEndian {a b c d : UInt8} :
    littleEndian (ofLittleEndian [a, b, c, d]) = [a, b, c, d] := by
  have := a.toNat_lt
  have := b.toNat_lt
  have := c.toNat_lt
  have := d.toNat_lt
  simp only [littleEndian, ofLittleEndian, List.cons.injEq, ← UInt8.toNat_inj,
    UInt8.toNat_ofNat', and_true]
  omega

end Bytes

end VirtualFiles
