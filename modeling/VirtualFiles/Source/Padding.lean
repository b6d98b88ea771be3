import VirtualFiles.Source.Basic

/-!
# Padding

Fill bytes between blocks. They are made when they are read, so padding may be as long as
the address space.

## Main definitions

* `Padding` — a fill byte and how often it is repeated
* `Padding.zeros` — padding with zeros
-/

namespace VirtualFiles

/-- A run of one fill byte. -/
structure Padding where
  fill : UInt8 := 0
  length : Nat
  deriving DecidableEq, Repr

namespace Padding

/-- A run of zeros. -/
def zeros (length : Nat) : Padding := ⟨0, length⟩

/-- The source that reads the run. -/
def source (p : Padding) : Source where
  length := p.length
  readAt _ offset count := .ok (List.replicate (min count (p.length - offset)) p.fill)
  readAt_le h := by
    cases h
    simp only [List.length_replicate]
    omega

end Padding

end VirtualFiles
