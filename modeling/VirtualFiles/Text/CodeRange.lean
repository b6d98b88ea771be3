/-!
# Ranges of code points

A property of characters is a list of closed ranges of code points, ascending and apart.

## Main definitions

* `CodeRange.holds` — does a character lie in one of the ranges?
* `CodeRange.ascending` — are the ranges ascending and apart?
-/

namespace VirtualFiles.CodeRange

/-- Does `c` lie in one of the ranges? -/
def holds (ranges : List (Nat × Nat)) (c : Char) : Bool :=
  ranges.any fun (first, last) => first ≤ c.toNat && c.toNat ≤ last

/-- Each range ends before the next begins. -/
def ascending : List (Nat × Nat) → Bool
  | [] => true
  | [(first, last)] => first ≤ last
  | (first, last) :: (next, stop) :: rest =>
    first ≤ last && last < next && ascending ((next, stop) :: rest)

end VirtualFiles.CodeRange
