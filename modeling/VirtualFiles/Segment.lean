import VirtualFiles.Source.Basic
import VirtualFiles.Extent

/-!
# Segments

A segment binds a source to the extent of a virtual file that it fills.

## Main definitions

* `SegmentKind` — where the bytes of a segment come from
* `Segment` — a source, its extent and its kind
-/

namespace VirtualFiles

/-- Where the bytes of a segment come from. -/
inductive SegmentKind
  | file
  | padding
  | memory
  | other
  deriving DecidableEq, Repr

namespace SegmentKind

/-- The kind in messages. -/
def display : SegmentKind → String
  | .file => "file"
  | .padding => "padding"
  | .memory => "memory"
  | .other => "other"

/-- The kind in descriptions of values. -/
def describe : SegmentKind → String
  | .file => "File"
  | .padding => "Padding"
  | .memory => "Memory"
  | .other => "Other"

end SegmentKind

/-- A source and the extent of a virtual file that it fills from its own offset `0` on. -/
structure Segment where
  source : Source
  extent : Extent
  kind : SegmentKind

namespace Segment

/-- The segment with its fields. -/
def describe (s : Segment) : String :=
  Record.closed "Segment"
    [("range", s.extent.describe), ("kind", s.kind.describe),
      ("source_len", toString s.source.length)]

end Segment

end VirtualFiles
