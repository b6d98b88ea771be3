import VirtualFiles.Text.Hex
import VirtualFiles.Text.Record

/-!
# Extents of addresses

A virtual file is addressed with 64-bit words. An extent is a half-open interval
`[start, stop)` of addresses whose end is still a 64-bit word; this is part of the type,
so arithmetic on the bounds of an extent never leaves the address space.

## Main definitions

* `addressSpace` — the number of addresses
* `Extent` — a start and a length whose sum is an address
* `Extent.ofStartLength`, `Extent.ofSignedLength` — checked construction
* `Extent.contains` — membership of an address

## Main results

* `ofStartLength_eq_ok_iff`, `ofSignedLength_eq_ok_iff` — when construction succeeds
-/

namespace VirtualFiles

/-- The number of addresses of a virtual file, `2 ^ 64`; every address is below it. -/
def addressSpace : Nat := 0x10000000000000000

/-- Why there is no such extent. -/
inductive ExtentError
  | negativeLength (length : Int)
  | overflow (start length : Nat)
  deriving DecidableEq, Repr

/-- The failure in words. -/
def ExtentError.message : ExtentError → String
  | .negativeLength length => "range length " ++ toString length ++ " is negative"
  | .overflow start length =>
    "range starting at " ++ Hex.address start ++ " with length " ++ Hex.address length ++
      " overflows"

/-- The half-open interval of the `length` addresses from `start` on. -/
structure Extent where
  start : Nat
  length : Nat
  /-- The end of the extent is an address. -/
  stop_lt : start + length < addressSpace
  deriving DecidableEq

namespace Extent

/-- The extent of `length` addresses from `start` on, if its end is an address. -/
def ofStartLength (start length : Nat) : Except ExtentError Extent :=
  if h : start + length < addressSpace then .ok ⟨start, length, h⟩
  else .error (.overflow start length)

/-- The extent for a length that was reported with a sign. -/
def ofSignedLength (start : Nat) (length : Int) : Except ExtentError Extent :=
  if length < 0 then .error (.negativeLength length)
  else ofStartLength start length.toNat

/-- The first address after the extent. -/
def stop (r : Extent) : Nat := r.start + r.length

/-- Does the extent hold no address? -/
def isEmpty (r : Extent) : Bool := r.length == 0

/-- Does the extent hold the address `offset`? -/
def contains (r : Extent) (offset : Nat) : Bool :=
  r.start ≤ offset && offset < r.stop

/-- The extent as messages show it, such as `[0x10, 0x30)`. -/
def display (r : Extent) : String :=
  "[" ++ Hex.address r.start ++ ", " ++ Hex.address r.stop ++ ")"

/-- The extent with its fields. -/
def describe (r : Extent) : String :=
  Record.closed "OffsetRange" [("start", toString r.start), ("length", toString r.length)]

variable {r : Extent} {start length offset : Nat}

theorem ofStartLength_eq_ok_iff :
    ofStartLength start length = .ok r ↔ r.start = start ∧ r.length = length := by
  unfold ofStartLength
  constructor
  · intro h
    split at h
    · cases h
      exact ⟨rfl, rfl⟩
    · cases h
  · rintro ⟨rfl, rfl⟩
    rw [dif_pos r.stop_lt]

theorem ofSignedLength_eq_ok_iff {length : Int} :
    ofSignedLength start length = .ok r ↔ r.start = start ∧ (r.length : Int) = length := by
  unfold ofSignedLength
  split
  · constructor
    · intro h
      cases h
    · rintro ⟨-, h⟩
      omega
  · rw [ofStartLength_eq_ok_iff]
    omega

@[simp] theorem contains_iff : r.contains offset = true ↔ r.start ≤ offset ∧ offset < r.stop := by
  simp [contains]

@[simp] theorem isEmpty_iff : r.isEmpty = true ↔ r.length = 0 := by
  simp [isEmpty]

end Extent

end VirtualFiles
