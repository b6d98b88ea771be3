import VirtualFiles.Source.Basic

/-!
# Sources that hold less than they announce

A partial source announces a length and holds some bytes, which may be fewer. It delivers
them in pieces of a limited size, and at the end of what it holds it gives nothing, or fails
in a fixed way.

## Main definitions

* `Partial` — the bytes held, the length announced and the way it ends
-/

namespace VirtualFiles

/-- A source whose length says nothing about the bytes it holds. -/
structure Partial where
  held : Bytes
  announced : Nat
  /-- The most bytes that one read gives. -/
  chunk : Option Nat := none
  /-- How a read after the bytes held fails; without it such a read gives nothing. -/
  ending : Option IoErrorKind := none
  deriving DecidableEq, Repr

namespace Partial

/-- At most `count` of the bytes held, from `offset` on. -/
def readAt (p : Partial) (offset count : Nat) : Except IoError Bytes :=
  if p.held.length ≤ offset then
    match p.ending with
    | some kind => if count = 0 then .ok [] else .error (.explained kind "faulty source")
    | none => .ok []
  else .ok (p.held.window offset (min count (p.chunk.getD count)))

theorem length_le_of_readAt {p : Partial} {offset count : Nat} {bytes : Bytes}
    (h : p.readAt offset count = .ok bytes) : bytes.length ≤ count := by
  unfold readAt at h
  split at h
  · split at h
    · split at h
      · cases h
        simp
      · cases h
    · cases h
      simp
  · cases h
    have := Bytes.length_window_le p.held offset (min count (p.chunk.getD count))
    omega

/-- The source that reads the bytes held. -/
def source (p : Partial) : Source where
  length := p.announced
  readAt _ := p.readAt
  readAt_le := length_le_of_readAt

end Partial

end VirtualFiles
