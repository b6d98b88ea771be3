import VirtualFiles.Text.Utf8

/-!
# Entry headers of PAK archives

An entry of a PAK archive begins with a header of fixed size: a name field and the length of
the data after the header, a signed 32-bit word in little-endian order. The name ends at the
first zero byte of its field, or with the field. The two versions of the format differ in the
size of the field.

## Main definitions

* `Pak.Version` — the two sizes of a header
* `Pak.Header` — a name field and a length
* `Pak.Header.parse` / `Pak.Header.bytes` — a header and its bytes
* `Pak.Header.make` — a header with a given name

## Main results

* `length_bytes` — a header has the size that its version says
-/

namespace VirtualFiles.Pak

/-- The versions of the format. -/
inductive Version
  | v1
  | v2
  deriving DecidableEq, Repr

namespace Version

/-- The size of the name field. -/
def nameCapacity : Version → Nat
  | .v1 => 252
  | .v2 => 32

/-- The size of a header. -/
def headerSize (v : Version) : Nat := v.nameCapacity + 4

/-- The version in listings. -/
def display : Version → String
  | .v1 => "V1"
  | .v2 => "V2"

end Version

/-- Why there is no header. -/
inductive HeaderError
  | sourceTooShort
  | nameTooLong (length limit : Nat)
  | nameHasNul
  deriving DecidableEq, Repr

/-- The failure in words. -/
def HeaderError.message : HeaderError → String
  | .sourceTooShort => "source buffer is too short"
  | .nameTooLong length limit =>
    "name is " ++ toString length ++ " bytes, at most " ++ toString limit ++ " fit"
  | .nameHasNul => "name contains a NUL byte"

/-- The header of an entry. -/
structure Header where
  version : Version
  /-- The whole name field. -/
  nameField : Bytes
  /-- The length of the data after the header. -/
  length : Int32
  length_nameField : nameField.length = version.nameCapacity
  deriving DecidableEq

namespace Header

/-- The header at the start of `raw`. -/
def parse (version : Version) (raw : Bytes) : Except HeaderError Header :=
  if enough : version.headerSize ≤ raw.length then
    .ok {
      version
      nameField := raw.take version.nameCapacity
      length :=
        (UInt32.ofNat (Bytes.ofLittleEndian (raw.window version.nameCapacity 4))).toInt32
      length_nameField := by
        unfold Version.headerSize at enough
        rw [List.length_take]
        omega }
  else .error .sourceTooShort

/-- The name with zeros after it, at least one of them. -/
def fieldOfName (version : Version) (name : Bytes) :
    Except HeaderError { field : Bytes // field.length = version.nameCapacity } :=
  if name.contains 0 then .error .nameHasNul
  else if fits : name.length < version.nameCapacity then
    .ok ⟨name ++ List.replicate (version.nameCapacity - name.length) 0, by
      rw [List.length_append, List.length_replicate]
      omega⟩
  else .error (.nameTooLong name.length (version.nameCapacity - 1))

/-- The header of an entry with that name and that many bytes of data. -/
def make (version : Version) (name : String) (length : Int32) : Except HeaderError Header :=
  match fieldOfName version (Utf8.encodeString name) with
  | .ok ⟨nameField, length_nameField⟩ => .ok { version, nameField, length, length_nameField }
  | .error e => .error e

/-- The bytes of the header. -/
def bytes (h : Header) : Bytes := h.nameField ++ Bytes.littleEndian h.length.toUInt32.toNat

/-- The bytes of the name. -/
def nameBytes (h : Header) : Bytes := h.nameField.takeWhile (· ≠ 0)

/-- The name as text. -/
def name (h : Header) : String := Utf8.lossy h.nameBytes

theorem length_bytes (h : Header) : h.bytes.length = h.version.headerSize := by
  rw [bytes, List.length_append, h.length_nameField, Bytes.length_littleEndian,
    Version.headerSize]

end Header

end VirtualFiles.Pak
