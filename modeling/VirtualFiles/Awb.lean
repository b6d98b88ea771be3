import VirtualFiles.Seekable.Basic
import VirtualFiles.Text.Utf8

/-!
# AWB audio banks

An AWB file begins with the four bytes `AFS2`.

## Main definitions

* `Awb.hasMagic` — do bytes begin like an AWB file?
* `Awb.isAwb` — is there an AWB file at the place of a reader?
-/

namespace VirtualFiles.Awb

/-- The first four bytes of every AWB file: `AFS2`. -/
def magic : Bytes := [0x41, 0x46, 0x53, 0x32]

/-- Do the bytes begin like an AWB file? -/
def hasMagic (bytes : Bytes) : Bool := magic.isPrefixOf bytes

/-- Reads four bytes and compares them. Data that ends before is no AWB file. -/
def probe {σ : Type} (r : Seekable σ) (state : σ) : Except IoError Bool × σ :=
  match r.readExact state magic.length with
  | (.ok bytes, next) => (.ok (bytes == magic), next)
  | (.error e, next) => (if e.kind = .unexpectedEof then .ok false else .error e, next)

/-- Is there an AWB file at the place of the reader? The reader is moved back to it. -/
def isAwb {σ : Type} (r : Seekable σ) (state : σ) : Except IoError Bool × σ :=
  r.withRestoredPosition (probe r) state

end VirtualFiles.Awb
