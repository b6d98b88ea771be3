import VirtualFiles.Proofs.Pak.Encoding

/-!
# Headers written again

Every byte string that is long enough is a header, whatever it holds, and the header has its bytes
again. But not every header can be made from its name and its length: a name field may have no zero
at all, something else than zeros after the first one, or bytes that are no text. These are the
only headers that are lost when they are written again from what was read.

## Main definitions

* `IsPadded` — the fields that hold a text and zeros after it

## Main results

* `Header.bytes_of_parse`, `Header.bytes_injective` — a header and its bytes
* `Header.make_name_eq_ok_iff` — the headers that can be made from their name and length
* `make_of_parse_iff` — what is read from a byte string, and when it can be written again
-/

namespace VirtualFiles

namespace Utf8

/-- The texts are the byte strings that a string encodes to. -/
theorem isValidUTF8_iff {text : Bytes} :
    text.toByteArray.IsValidUTF8 ↔ ∃ name, encodeString name = text := by
  constructor
  · rintro ⟨chars, hchars⟩
    refine ⟨String.ofList chars, List.toByteArray_inj.mp ?_⟩
    rw [toByteArray_encodeString, String.toByteArray_ofList, hchars]
  · rintro ⟨name, rfl⟩
    rw [toByteArray_encodeString]
    exact name.isValidUTF8

end Utf8

namespace Bytes

variable {bytes : Bytes} {offset : Nat}

theorem exists_window_four (h : offset + 4 ≤ bytes.length) :
    ∃ a b c d, bytes.window offset 4 = [a, b, c, d] := by
  have hlength : (bytes.window offset 4).length = 4 := length_window_of_le h
  match hwindow : bytes.window offset 4, hlength with
  | [a, b, c, d], _ => exact ⟨a, b, c, d, rfl⟩

theorem ofLittleEndian_lt {a b c d : UInt8} : ofLittleEndian [a, b, c, d] < 0x100000000 := by
  have := a.toNat_lt
  have := b.toNat_lt
  have := c.toNat_lt
  have := d.toNat_lt
  simp only [ofLittleEndian]
  omega

end Bytes

namespace Pak

open Utf8

/-- A field that holds a text and then nothing but zeros, at least one of them. -/
def IsPadded (field : Bytes) : Prop :=
  ∃ text zeros, field = text ++ 0 :: zeros ∧ 0 ∉ text ∧ text.toByteArray.IsValidUTF8 ∧
    ∀ b ∈ zeros, b = 0

namespace Header

variable {version : Version} {name : String} {length : Int32} {h h' : Header} {raw : Bytes}
variable {a b c d : UInt8}

/-! ### The bytes of a header that was read -/

/-- The bytes of a header are those that it was read from. -/
theorem bytes_of_parse (hparse : parse version raw = .ok h) :
    h.bytes = raw.take version.headerSize := by
  obtain ⟨hsize, -, hfield, hlength⟩ := parse_eq_ok_iff.mp hparse
  obtain ⟨a, b, c, d, hword⟩ := Bytes.exists_window_four hsize
  have hlt : Bytes.ofLittleEndian [a, b, c, d] < 0x100000000 := Bytes.ofLittleEndian_lt
  calc h.bytes
      = raw.take version.nameCapacity ++
          Bytes.littleEndian (Bytes.ofLittleEndian [a, b, c, d]) := by
        rw [bytes, hfield, hlength, hword, Int32.toUInt32_ofNat', UInt32.toNat_ofNat_of_lt' hlt]
    _ = raw.take version.nameCapacity ++ raw.window version.nameCapacity 4 := by
        rw [Bytes.littleEndian_ofLittleEndian, hword]
    _ = raw.take version.headerSize := List.take_add.symm

/-- The last four bytes of a header are its length in two's complement. -/
theorem toInt_length_of_parse (hparse : parse version raw = .ok h)
    (hword : raw.window version.nameCapacity 4 = [a, b, c, d]) :
    h.length.toInt = Int.bmod (a.toNat + 0x100 * b.toNat + 0x10000 * c.toNat +
      0x1000000 * d.toNat) 0x100000000 := by
  obtain ⟨-, -, -, hlength⟩ := parse_eq_ok_iff.mp hparse
  rw [hlength, hword, Int32.toInt_ofNat']
  congr 1
  simp only [Bytes.ofLittleEndian]
  omega

/-- Two headers of one version with the same bytes are one. -/
theorem bytes_injective (hversion : h.version = h'.version) (hbytes : h.bytes = h'.bytes) :
    h = h' := by
  have hparse := parse_bytes_append h []
  rw [hversion, hbytes, parse_bytes_append h' []] at hparse
  exact (Except.ok.inj hparse).symm

/-! ### Headers that can be written again -/

theorem isPadded_of_make (hmake : make version name length = .ok h) : IsPadded h.nameField := by
  obtain ⟨hzero, -⟩ := make_eq_ok_iff.mp hmake
  obtain ⟨zeros, hfield, hzeros⟩ := nameField_of_make hmake
  exact ⟨_, zeros, hfield, hzero, isValidUTF8_iff.mpr ⟨name, rfl⟩, hzeros⟩

/-- A header with a padded field is made from its name and its length. -/
theorem make_name_of_isPadded (hpadded : IsPadded h.nameField) :
    make h.version h.name h.length = .ok h := by
  obtain ⟨text, zeros, hfield, hzero, hvalid, hzeros⟩ := hpadded
  obtain ⟨name, rfl⟩ := isValidUTF8_iff.mp hvalid
  -- the zeros fill the field, so there are as many as a new header would have
  have hcapacity := h.length_nameField
  rw [hfield, List.length_append, List.length_cons] at hcapacity
  have hfill : 0 :: zeros =
      List.replicate (h.version.nameCapacity - (encodeString name).length) 0 := by
    refine List.eq_replicate_iff.mpr ⟨?_, List.forall_mem_cons.mpr ⟨rfl, hzeros⟩⟩
    rw [List.length_cons]
    omega
  rw [name_of_field hfield hzero]
  exact make_eq_ok_iff.mpr ⟨hzero, by omega, rfl, hfill ▸ hfield, rfl⟩

/-- The headers that can be made from their name and length are those with a padded field. -/
theorem make_name_eq_ok_iff : make h.version h.name h.length = .ok h ↔ IsPadded h.nameField :=
  ⟨isPadded_of_make, make_name_of_isPadded⟩

end Header

/-- A header is read from every byte string that is long enough. It has the bytes of the string,
its name is the longest prefix of the name field that has no zero, and its length is the last four
bytes in two's complement. From its name, read as text, and its length the same bytes are made if
and only if the field holds a text and then nothing but zeros, at least one of them. -/
theorem make_of_parse_iff (version : Version) (raw : Bytes) :
    (Header.parse version raw = .error .sourceTooShort ↔ raw.length < version.headerSize) ∧
    (version.headerSize ≤ raw.length →
      ∃ h, Header.parse version raw = .ok h ∧ h.version = version ∧
        h.bytes = raw.take version.headerSize ∧
        (∀ text, text <+: h.nameBytes ↔ text <+: raw.take version.nameCapacity ∧ 0 ∉ text) ∧
        (∃ a b c d, raw.window version.nameCapacity 4 = [a, b, c, d] ∧
          h.length.toInt = Int.bmod (a.toNat + 0x100 * b.toNat + 0x10000 * c.toNat +
            0x1000000 * d.toNat) 0x100000000) ∧
        ((∃ h', Header.make version h.name h.length = .ok h' ∧
            h'.bytes = raw.take version.headerSize) ↔
          IsPadded (raw.take version.nameCapacity))) := by
  refine ⟨by simp only [Header.parse_eq_error_iff, and_true], fun hsize => ?_⟩
  obtain ⟨h, hparse⟩ := Header.exists_parse hsize
  obtain ⟨-, rfl, hfield, -⟩ := Header.parse_eq_ok_iff.mp hparse
  obtain ⟨a, b, c, d, hword⟩ := Bytes.exists_window_four hsize
  have hbytes := Header.bytes_of_parse hparse
  refine ⟨h, hparse, rfl, hbytes, fun text => ?_, ?_, ?_⟩
  · rw [← hfield]
    exact Header.isPrefix_nameBytes_iff
  · exact ⟨a, b, c, d, hword, Header.toInt_length_of_parse hparse hword⟩
  · rw [← hfield, ← Header.make_name_eq_ok_iff, ← hbytes]
    constructor
    · rintro ⟨h', hmake, hsame⟩
      -- the bytes leave no choice of the header
      obtain ⟨-, -, hversion, -⟩ := Header.make_eq_ok_iff.mp hmake
      rwa [Header.bytes_injective hversion hsame] at hmake
    · intro hmake
      exact ⟨h, hmake, rfl⟩

/-- A header of version 2 with a name of one character and the length `-2`, and two bytes more. -/
def shortName : Bytes :=
  [0xC3, 0xA9] ++ List.replicate 30 0 ++ [0xFE, 0xFF, 0xFF, 0xFF] ++ [0x01, 0x02]

/-- The header with a short name is written again as it was, and its length is negative. -/
theorem make_of_parse_shortName : Version.v2.headerSize ≤ shortName.length ∧
    ∃ h h', Header.parse .v2 shortName = .ok h ∧ h.length.toInt = -2 ∧
      Header.make .v2 h.name h.length = .ok h' ∧ h'.bytes = shortName.take 36 := by
  have hsize : Version.v2.headerSize ≤ shortName.length := by decide
  obtain ⟨h, hparse, -, -, -, ⟨a, b, c, d, hword, hlength⟩, hmake⟩ :=
    (make_of_parse_iff .v2 shortName).2 hsize
  obtain ⟨h', hagain, hbytes⟩ :=
    hmake.mpr ⟨[0xC3, 0xA9], List.replicate 29 0, rfl, by decide, ⟨['é'], by decide⟩,
      fun _ hb => List.eq_of_mem_replicate hb⟩
  cases hword
  exact ⟨hsize, h, h', hparse, hlength.trans (by decide +kernel), hagain, hbytes⟩

end Pak

end VirtualFiles
