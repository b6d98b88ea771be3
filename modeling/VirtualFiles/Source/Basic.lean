import VirtualFiles.FileSystem.Basic

/-!
# Sources of bytes

A source is read at offsets of its own, the first byte being at offset `0`. It has no
cursor, so a read depends on the offset, the number of bytes asked for and the state of
the file system at that moment, and on nothing else. A read may come back with fewer bytes
than were asked for; how many it may leave out is not fixed, and neither is whether a source
delivers all the bytes that its length announces.

## Main definitions

* `Source` — a length and a positional read
* `Source.readExactAt` — reads until everything asked for is there

## Main results

* `length_of_readExactAt` — an exact read gives exactly as many bytes as were asked for
-/

namespace VirtualFiles

/-- A stateless source of bytes. -/
structure Source where
  /-- How many bytes the source says it has. -/
  length : Nat
  /-- `readAt fs offset count` gives at most `count` bytes from `offset` on. None at all
  means that the source ends there. -/
  readAt : FileSystem → Nat → Nat → Except IoError Bytes
  /-- A read never gives more than was asked for. -/
  readAt_le : ∀ {fs offset count bytes}, readAt fs offset count = .ok bytes →
    bytes.length ≤ count

namespace Source

/-- Does the source say that it has no bytes? -/
def isEmpty (s : Source) : Bool := s.length == 0

/-- The failure of a source that ends before everything asked for was read. -/
def endedEarly : IoError := .explained .unexpectedEof "unexpected EOF in source"

/-- Exactly `count` bytes from `offset` on. Reads go on after what has been read until
everything is there; one that gives nothing ends them. -/
def readExactAt (s : Source) (fs : FileSystem) (offset count : Nat) : Except IoError Bytes :=
  if count = 0 then .ok []
  else
    match s.readAt fs offset count with
    | .error e => .error e
    | .ok [] => .error endedEarly
    | .ok (b :: bs) =>
      (s.readExactAt fs (offset + (b :: bs).length) (count - (b :: bs).length)).map
        ((b :: bs) ++ ·)
termination_by count
decreasing_by
  simp only [List.length_cons]
  omega

variable {s : Source} {fs : FileSystem} {offset count : Nat} {bytes : Bytes}

theorem length_of_readExactAt (h : s.readExactAt fs offset count = .ok bytes) :
    bytes.length = count := by
  fun_induction readExactAt s fs offset count generalizing bytes with
  | case1 =>
    cases h
    rfl
  | case2 => cases h
  | case3 => cases h
  | case4 offset count _ b bs hread ih =>
    cases hrest : s.readExactAt fs (offset + (b :: bs).length) (count - (b :: bs).length) with
    | error e =>
      rw [hrest] at h
      cases h
    | ok rest =>
      rw [hrest] at h
      cases h
      have hle := s.readAt_le hread
      have := ih hrest
      simp only [List.cons_append, List.length_cons, List.length_append] at *
      omega

end Source

end VirtualFiles
