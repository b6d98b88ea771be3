import VirtualFiles.Layout.Plan
import VirtualFiles.Source.FileWindow
import VirtualFiles.Source.Memory
import VirtualFiles.Source.Padding
import VirtualFiles.VirtualStream.Basic

/-!
# Opening a layout

A plan becomes a stream when its blocks are opened. Every block is opened, also one of
length zero, and has to have enough bytes at that moment; later changes of its file show in
the stream.

## Main definitions

* `LayoutError` — why a layout did not become a stream
* `Plan.open` — the stream of a plan and a header
* `Container` — blocks and a header, as a builder makes them
* `Container.open` — the stream of a container
-/

namespace VirtualFiles

/-- Why a container did not become a stream. -/
inductive LayoutError
  | plan (cause : PlanError)
  | headerMismatch (expected actual : Nat)
  | openBacking (index : Nat) (path : Path) (cause : IoError)
  | backingTooShort (index : Nat) (path : Path) (expected actual : Nat)
  | assemble (cause : StreamError)
  deriving DecidableEq

/-- The failure in words. -/
def LayoutError.message : LayoutError → String
  | .plan cause => cause.message
  | .headerMismatch expected actual =>
    "header is " ++ toString actual ++ " bytes, the layout was planned for " ++ toString expected
  | .openBacking index path _ =>
    "cannot open backing file " ++ path.display ++ " for block #" ++ toString index
  | .backingTooShort index path expected actual =>
    "backing file " ++ path.display ++ " for block #" ++ toString index ++ " holds " ++
      toString actual ++ " bytes, " ++ toString expected ++ " needed"
  | .assemble _ => "cannot assemble the composite stream"

namespace Plan

/-- Where a block of `length` bytes at `fileOffset` ends in its file, at most the last
address. -/
def blockStop (fileOffset length : Nat) : Nat := min (fileOffset + length) (addressSpace - 1)

/-- Opens the file of a block. It has to hold the whole block now. -/
def openBlock (fs : FileSystem) (index : Nat) (path : Path) (fileOffset length : Nat) :
    Except LayoutError FileWindow :=
  match FileWindow.open? fs path fileOffset length with
  | .error cause => .error (.openBacking index path cause)
  | .ok window =>
    if fs.size window.node < blockStop fileOffset length then
      .error (.backingTooShort index path (blockStop fileOffset length) (fs.size window.node))
    else .ok window

/-- The segment of one placement. -/
def openPlacement (fs : FileSystem) (header : Bytes) (p : Placement) :
    Except LayoutError Segment :=
  match p.filling with
  | .block index path fileOffset => do
    let window ← openBlock fs index path fileOffset p.extent.length
    return ⟨window.source, p.extent, .file⟩
  | .padding => .ok ⟨(Padding.zeros p.extent.length).source, p.extent, .padding⟩
  | .header => .ok ⟨.ofBytes header, p.extent, .memory⟩

/-- The stream of a plan. The header has to be as long as it was planned. -/
def «open» (p : Plan) (fs : FileSystem) (header : Bytes) : Except LayoutError VirtualStream := do
  -- before any file is opened
  if header.length ≠ p.headerLength then throw (.headerMismatch p.headerLength header.length)
  let segments ← p.placements.mapM (openPlacement fs header)
  (VirtualStream.ofSegments segments).mapError .assemble

end Plan

/-- Blocks and the header after them, as a container builder makes them. -/
structure Container where
  blocks : List Block := []
  header : Bytes := []
  deriving DecidableEq, Repr

/-- The stream of a container whose blocks are laid out with that alignment. -/
def Container.open (c : Container) (fs : FileSystem) (alignment : Nat) :
    Except LayoutError VirtualStream := do
  let plan ← (Plan.compute c.blocks c.header.length alignment).mapError .plan
  plan.open fs c.header

end VirtualFiles
