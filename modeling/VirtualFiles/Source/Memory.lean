import VirtualFiles.Source.Basic
import VirtualFiles.Text.Record

/-!
# Bytes in memory

## Main definitions

* `Source.ofBytes` — the bytes of a string
* `Memory` — a blob, such as a generated header
-/

namespace VirtualFiles

namespace Source

/-- A source with the bytes of a string. -/
def ofBytes (data : Bytes) : Source where
  length := data.length
  readAt _ offset count := .ok (data.window offset count)
  readAt_le h := by
    cases h
    exact Bytes.length_window_le _ _ _

@[simp] theorem length_ofBytes (data : Bytes) : (ofBytes data).length = data.length := rfl

end Source

/-- A blob in memory, such as a header that a container builder made. -/
structure Memory where
  data : Bytes
  deriving DecidableEq, Repr

namespace Memory

/-- The source that reads the blob. -/
def source (m : Memory) : Source := .ofBytes m.data

/-- The blob by its size. -/
def describe (m : Memory) : String :=
  Record.closed "MemorySource" [("len", toString m.data.length)]

end Memory

end VirtualFiles
