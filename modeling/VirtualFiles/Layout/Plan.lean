import VirtualFiles.Extent
import VirtualFiles.Path

/-!
# Laying out blocks

A container is made of blocks of real files and a header. The blocks are placed in the order
in which they are listed, each on a multiple of the alignment, and the header follows the
last of them. Gaps are filled with zeros.

The declared start of a block is a lower bound: a block lands at its declared start or at
the first aligned address after the block before it, whichever is later. Declared extents
must not overlap each other. For the blocks `a` at 0 and `b` at 100, of 100 and 50 bytes,
an alignment of 64 and a header of 10 bytes:

* `[  0, 100)` is `a`
* `[100, 128)` is padding
* `[128, 178)` is `b`
* `[178, 188)` is the header

## Main definitions

* `Block` — a piece of a file with a declared start and length
* `Placement` — an extent of the container and what fills it
* `Plan` — the placements of all blocks, gaps and the header
* `Plan.compute` — the layout of a list of blocks
-/

namespace VirtualFiles

/-- A piece of a real file that goes into a container. -/
structure Block where
  path : Path
  /-- Where the block is to begin in the container, at the earliest. -/
  start : Nat
  /-- The declared length. It carries a sign because builders report one. -/
  length : Int
  /-- Where the block begins in its file. -/
  fileOffset : Nat := 0
  deriving DecidableEq, Repr

/-- What fills an extent of a container. -/
inductive Filling
  /-- The data of the block at `index` in the list of blocks. -/
  | block (index : Nat) (path : Path) (fileOffset : Nat)
  | padding
  | header
  deriving DecidableEq, Repr

/-- An extent of a container and what fills it. -/
structure Placement where
  extent : Extent
  filling : Filling
  deriving DecidableEq

/-- Why there is no layout. -/
inductive PlanError
  | zeroAlignment
  | overlap (index start previousStop : Nat)
  | alignmentOverflow (stop alignment : Nat)
  | blockExtent (index : Nat) (cause : ExtentError)
  | headerExtent (cause : ExtentError)
  deriving DecidableEq, Repr

/-- The failure in words. -/
def PlanError.message : PlanError → String
  | .zeroAlignment => "block alignment must be non-zero"
  | .overlap index start previousStop =>
    "block #" ++ toString index ++ " starts at " ++ Hex.address start ++
      ", inside the previous block ending at " ++ Hex.address previousStop
  | .alignmentOverflow stop alignment =>
    "aligning " ++ Hex.address stop ++ " to " ++ Hex.address alignment ++ " overflows"
  | .blockExtent index _ => "block #" ++ toString index ++ " has an invalid range"
  | .headerExtent _ => "header does not fit in the virtual address space"

/-- The placements of all blocks, gaps and the header. -/
structure Plan where
  placements : List Placement
  headerLength : Nat
  /-- The length of the container. -/
  length : Nat
  deriving DecidableEq

namespace Plan

/-- The first multiple of `alignment` at or above `n`. -/
def nextMultiple (n alignment : Nat) : Nat :=
  if n % alignment = 0 then n else n + (alignment - n % alignment)

/-- The first multiple of `alignment` at or above `stop`, if it is an address. -/
def roundUp (stop alignment : Nat) : Except PlanError Nat :=
  if nextMultiple stop alignment < addressSpace then .ok (nextMultiple stop alignment)
  else .error (.alignmentOverflow stop alignment)

/-- The padding before a block that lands at `start` after data that ends at `stop`. -/
def gap (index stop start : Nat) : Except PlanError (List Placement) :=
  if stop < start then
    match Extent.ofStartLength stop (start - stop) with
    | .ok extent => .ok [⟨extent, .padding⟩]
    | .error cause => .error (.blockExtent index cause)
  else .ok []

/-- The padding before a block and its placement. `stop` is the end of what has been placed,
and `declaredStop` the declared end of the block before. -/
def placeBlock (alignment index stop declaredStop : Nat) (block : Block) :
    Except PlanError (List Placement × Extent × Extent) := do
  let declared ← (Extent.ofSignedLength block.start block.length).mapError (.blockExtent index)
  -- declared extents are compared with each other, not with where earlier blocks landed
  if block.start < declaredStop then throw (.overlap index block.start declaredStop)
  let aligned ← roundUp stop alignment
  let start := max block.start aligned
  let padding ← gap index stop start
  let placed ← (Extent.ofStartLength start declared.length).mapError (.blockExtent index)
  return (padding ++ [⟨placed, .block index block.path block.fileOffset⟩], declared, placed)

/-- The placements of the blocks from number `index` on, and the end of the last of them. -/
def placeBlocks (alignment index stop declaredStop : Nat) :
    List Block → Except PlanError (List Placement × Nat)
  | [] => return ([], stop)
  | block :: rest => do
    let (here, declared, placed) ← placeBlock alignment index stop declaredStop block
    let (later, last) ← placeBlocks alignment (index + 1) placed.stop declared.stop rest
    return (here ++ later, last)

/-- The placement of a header after data that ends at `stop`. An empty header is not
placed. -/
def placeHeader (stop headerLength : Nat) : Except PlanError (List Placement) :=
  if headerLength = 0 then .ok []
  else
    match Extent.ofStartLength stop headerLength with
    | .ok extent => .ok [⟨extent, .header⟩]
    | .error cause => .error (.headerExtent cause)

/-- The layout of the blocks with a header of `headerLength` bytes after them. -/
def compute (blocks : List Block) (headerLength alignment : Nat) : Except PlanError Plan := do
  if alignment = 0 then throw .zeroAlignment
  let (placed, stop) ← placeBlocks alignment 0 0 0 blocks
  let header ← placeHeader stop headerLength
  return ⟨placed ++ header, headerLength, stop + headerLength⟩

/-- Is the container empty? -/
def isEmpty (p : Plan) : Bool := p.length == 0

end Plan

end VirtualFiles
