import VirtualFiles.VirtualStream.Cursor

/-!
# Virtual files

A virtual file is a stream that was made at some point. Two files may hold the same bytes and
are still two files, so each has a number: the files are numbered in the order in which they
are made.

## Main definitions

* `VirtualFile` — a stream with the number of the file
* `VirtualFile.contents` — all bytes of a file
* `Catalog` — all files made so far
-/

namespace VirtualFiles

/-- A stream that was made as the file of that number. -/
structure VirtualFile where
  number : Nat
  stream : VirtualStream

namespace VirtualFile

/-- The length of the file. -/
def length (f : VirtualFile) : Nat := f.stream.length

/-- Does the file hold no byte? -/
def isEmpty (f : VirtualFile) : Bool := f.stream.isEmpty

/-- The size of the pieces in which a whole file is read. -/
def pieceSize : Nat := 65536

/-- All bytes of the file. -/
def contents (f : VirtualFile) (fs : FileSystem) : Except ReadError Bytes :=
  ((Cursor.ofStream f.stream).drain fs pieceSize).1

/-- At most `count` bytes of the file from `offset` on. -/
def readAt (f : VirtualFile) (fs : FileSystem) (offset count : Nat) : Except ReadError Bytes :=
  f.stream.readAt fs offset count

end VirtualFile

/-- The streams of all files made so far, by the number of the file. -/
abbrev Catalog := List VirtualStream

namespace Catalog

/-- Makes a new file of a stream. -/
def make (catalog : Catalog) (stream : VirtualStream) : VirtualFile × Catalog :=
  (⟨catalog.length, stream⟩, catalog ++ [stream])

/-- The file of that number. -/
def file? (catalog : Catalog) (number : Nat) : Option VirtualFile :=
  catalog[number]?.map (⟨number, ·⟩)

end Catalog

end VirtualFiles
