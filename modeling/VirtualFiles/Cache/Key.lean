import VirtualFiles.Path
import VirtualFiles.Text.Lowercase

/-!
# Cache keys

Two spellings of a path share a cache entry if they differ in case and in the direction of
slashes only. The key of a path is the spelling in lower case with forward slashes. Bytes
that are no text are kept as they are, so paths that differ in them have different keys.

## Main definitions

* `CacheKey.ofPath` — the key of a path
* `CacheKey.normalize` — the text of a key
-/

namespace VirtualFiles

/-- What a path has in common with its other spellings. -/
structure CacheKey where
  bytes : Bytes
  deriving DecidableEq, Repr

namespace CacheKey

/-- A character with backslashes turned into slashes. -/
def foldSlash (c : Char) : Char := if c = '\\' then '/' else c

/-- A text in lower case with forward slashes. -/
def normalize (text : List Char) : List Char := (Lowercase.text text).map foldSlash

/-- A run of text in lower case with forward slashes, and the bytes after it as they are. -/
def ofChunk (c : Utf8.Chunk) : Bytes := Utf8.encode (normalize c.valid) ++ c.invalid

/-- The key of a path. Every run of text is normalized by itself. -/
def ofPath (p : Path) : CacheKey := ⟨(Utf8.chunks p.bytes).flatMap ofChunk⟩

/-- The key as text, with a replacement character for bytes that are no text. -/
def display (k : CacheKey) : String := Utf8.lossy k.bytes

example : ofPath (.ofString "Paks\\Global.UTOC") = ofPath (.ofString "paks/global.utoc") := by
  decide +kernel

end CacheKey

end VirtualFiles
