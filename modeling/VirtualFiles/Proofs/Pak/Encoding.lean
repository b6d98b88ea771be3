import VirtualFiles.Pak.File
import VirtualFiles.Proofs.FileSystem.Growth
import VirtualFiles.Proofs.Text.Chunks
import Mathlib.Data.List.TakeWhile

/-!
# Headers read back

A header can be made for every name that has no zero byte and leaves room for one in the field.
The header that was made is the one that is read, wherever its bytes stand in an archive and
whatever is around them: the name comes back letter for letter, and so does the length with its
sign.

## Main results

* `Header.make_eq_ok_iff`, `Header.make_eq_error_iff` — what comes of a name
* `Header.parse_bytes_append` — the bytes of a header are read as that header
* `Header.nameBytes_of_field`, `Utf8.lossy_encodeString` — the name in a field
* `readEntry_of_make` — a header that was made is read back
-/

namespace VirtualFiles

/-! ### Texts as bytes -/

namespace Utf8

variable {text : String}

theorem toByteArray_encodeString : (encodeString text).toByteArray = text.toByteArray :=
  String.utf8Encode_toList

theorem length_encodeString : (encodeString text).length = text.utf8ByteSize := by
  rw [← List.size_toByteArray, toByteArray_encodeString, String.size_toByteArray]

theorem mem_encodeString {b : UInt8} : b ∈ encodeString text ↔ b ∈ text.toByteArray.data := by
  rw [← toByteArray_encodeString, List.data_toByteArray, List.mem_toArray]

/-- A text is read off its bytes. -/
theorem lossy_encodeString (text : String) : lossy (encodeString text) = text := by
  rw [lossy, encodeString, lossyChars_encode, String.ofList_toList]

end Utf8

namespace Pak

open Utf8

namespace Header

variable {version : Version} {name : String} {length : Int32} {h : Header} {e : HeaderError}
variable {raw text rest : Bytes}

attribute [ext] Header

/-! ### The name field -/

theorem fieldOfName_of_mem (hzero : 0 ∈ text) : fieldOfName version text = .error .nameHasNul := by
  rw [fieldOfName, if_pos (List.contains_iff_mem.mpr hzero)]

theorem fieldOfName_of_le (hzero : 0 ∉ text) (hle : version.nameCapacity ≤ text.length) :
    fieldOfName version text =
      .error (.nameTooLong text.length (version.nameCapacity - 1)) := by
  rw [fieldOfName, if_neg (mt List.contains_iff_mem.mp hzero), dif_neg (Nat.not_lt.mpr hle)]

theorem exists_fieldOfName (hzero : 0 ∉ text) (hlt : text.length < version.nameCapacity) :
    ∃ hlength, fieldOfName version text =
      .ok ⟨text ++ List.replicate (version.nameCapacity - text.length) 0, hlength⟩ := by
  rw [fieldOfName, if_neg (mt List.contains_iff_mem.mp hzero), dif_pos hlt]
  exact ⟨_, rfl⟩

/-- A header is made for the names that leave room for a zero in their field. -/
theorem make_eq_ok_iff : make version name length = .ok h ↔
    0 ∉ encodeString name ∧ (encodeString name).length < version.nameCapacity ∧
      h.version = version ∧
      h.nameField = encodeString name ++
        List.replicate (version.nameCapacity - (encodeString name).length) 0 ∧
      h.length = length := by
  by_cases hzero : 0 ∈ encodeString name
  · simp only [make, fieldOfName_of_mem hzero, hzero, reduceCtorEq, not_true, false_and]
  by_cases hlt : (encodeString name).length < version.nameCapacity
  · obtain ⟨hlength, hfield⟩ := exists_fieldOfName hzero hlt
    simp only [make, hfield, Except.ok.injEq, hzero, hlt, not_false_iff, true_and]
    rw [eq_comm, Header.ext_iff]
  · simp only [make, fieldOfName_of_le hzero (Nat.not_lt.mp hlt), hlt, reduceCtorEq, false_and,
      and_false]

/-- A zero in a name counts before its length. -/
theorem make_eq_error_iff : make version name length = .error e ↔
    (0 ∈ encodeString name ∧ e = .nameHasNul) ∨
      (0 ∉ encodeString name ∧ version.nameCapacity ≤ (encodeString name).length ∧
        e = .nameTooLong (encodeString name).length (version.nameCapacity - 1)) := by
  by_cases hzero : 0 ∈ encodeString name
  · simp only [make, fieldOfName_of_mem hzero, hzero, Except.error.injEq, true_and, not_true,
      false_and, or_false, eq_comm]
  by_cases hle : version.nameCapacity ≤ (encodeString name).length
  · simp only [make, fieldOfName_of_le hzero hle, hzero, hle, Except.error.injEq, false_and,
      not_false_iff, true_and, false_or, eq_comm]
  · obtain ⟨hlength, hfield⟩ := exists_fieldOfName hzero (Nat.not_le.mp hle)
    simp only [make, hfield, hzero, hle, reduceCtorEq, false_and, and_false, or_false]

/-! ### Names in fields -/

/-- No byte of the name is left out before the first zero of the field. -/
theorem nameBytes_of_append (hfield : h.nameField = text ++ rest) (hzero : 0 ∉ text) :
    h.nameBytes = text ++ rest.takeWhile (· ≠ 0) := by
  have hall : ∀ b ∈ text, decide (b ≠ 0) = true := by
    intro b hb
    exact decide_eq_true (ne_of_mem_of_not_mem hb hzero)
  rw [nameBytes, hfield, List.takeWhile_append_of_pos hall]

/-- A prefix of the field has no zero if and only if it is one of the name, so the name is the
longest of them. -/
theorem isPrefix_nameBytes_iff : text <+: h.nameBytes ↔ text <+: h.nameField ∧ 0 ∉ text := by
  constructor
  · intro htext
    refine ⟨htext.trans (List.takeWhile_prefix _), fun hzero => ?_⟩
    have hname := List.mem_takeWhile_imp (htext.subset hzero)
    exact of_decide_eq_true hname rfl
  · rintro ⟨⟨rest, hfield⟩, hzero⟩
    rw [nameBytes_of_append hfield.symm hzero]
    exact List.prefix_append _ _

/-- The name ends at the first zero. -/
theorem nameBytes_of_field (hfield : h.nameField = text ++ 0 :: rest) (hzero : 0 ∉ text) :
    h.nameBytes = text := by
  rw [nameBytes_of_append hfield hzero, List.takeWhile_cons_of_neg (by simp), List.append_nil]

/-- A field with the bytes of a name and a zero after them holds that name. -/
theorem name_of_field (hfield : h.nameField = encodeString name ++ 0 :: rest)
    (hzero : 0 ∉ encodeString name) : h.name = name := by
  rw [Header.name, nameBytes_of_field hfield hzero, lossy_encodeString]

/-- The field of a header that was made is filled up with zeros, at least one. -/
theorem nameField_of_make (hmake : make version name length = .ok h) :
    ∃ zeros, h.nameField = encodeString name ++ 0 :: zeros ∧ ∀ b ∈ zeros, b = 0 := by
  obtain ⟨-, hlt, -, hfield, -⟩ := make_eq_ok_iff.mp hmake
  obtain ⟨more, hmore⟩ := Nat.exists_eq_succ_of_ne_zero (Nat.sub_ne_zero_of_lt hlt)
  rw [hmore, List.replicate_succ] at hfield
  exact ⟨_, hfield, fun _ hb => List.eq_of_mem_replicate hb⟩

/-- A header that was made has the name that it was made for. -/
theorem name_of_make (hmake : make version name length = .ok h) : h.name = name := by
  obtain ⟨hzero, -⟩ := make_eq_ok_iff.mp hmake
  obtain ⟨zeros, hfield, -⟩ := nameField_of_make hmake
  exact name_of_field hfield hzero

/-! ### Headers and their bytes -/

theorem parse_eq_ok_iff : parse version raw = .ok h ↔
    version.headerSize ≤ raw.length ∧ h.version = version ∧
      h.nameField = raw.take version.nameCapacity ∧
      h.length = Int32.ofNat (Bytes.ofLittleEndian (raw.window version.nameCapacity 4)) := by
  unfold parse
  split
  · next henough =>
    simp only [Except.ok.injEq, henough, true_and, UInt32.toInt32_ofNat']
    rw [eq_comm, Header.ext_iff]
  · next hshort => simp only [hshort, reduceCtorEq, false_and]

theorem exists_parse (hsize : version.headerSize ≤ raw.length) : ∃ h, parse version raw = .ok h :=
  ⟨_, dif_pos hsize⟩

theorem parse_eq_error_iff : parse version raw = .error e ↔
    raw.length < version.headerSize ∧ e = .sourceTooShort := by
  unfold parse
  split
  · next henough => simp only [reduceCtorEq, Nat.not_lt.mpr henough, false_and]
  · next hshort => simp only [Except.error.injEq, Nat.not_le.mp hshort, true_and, eq_comm]

/-- The bytes of a header are read as that header, whatever comes after them. -/
theorem parse_bytes_append (h : Header) (rest : Bytes) :
    parse h.version (h.bytes ++ rest) = .ok h := by
  have hfield := h.length_nameField
  have hlength := h.length_bytes
  refine parse_eq_ok_iff.mpr ⟨?_, rfl, ?_, ?_⟩
  · rw [List.length_append]
    omega
  · rw [bytes, List.append_assoc, List.take_append_of_le_length (Nat.le_of_eq hfield.symm),
      List.take_of_length_le (Nat.le_of_eq hfield)]
  · have hword : (h.bytes ++ rest).window h.version.nameCapacity 4 =
        Bytes.littleEndian h.length.toUInt32.toNat := by
      rw [Bytes.window, bytes, List.append_assoc, List.drop_left' hfield]
      exact List.take_left' (Bytes.length_littleEndian _)
    rw [hword, Bytes.ofLittleEndian_littleEndian h.length.toUInt32.toNat_lt,
      ← UInt32.toInt32_ofNat', UInt32.ofNat_toNat, Int32.toInt32_toUInt32]

end Header

/-! ### Headers in files -/

/-- An entry is read off the content of its file, from its offset on. -/
theorem readEntry_of_contentOf {map : Mapping} {fs : FileSystem} {path : Path} {content : Bytes}
    {offset : Nat} (version : Version) (hmap : map.ShowsFiles fs)
    (hcontent : fs.contentOf path = .ok content) (hle : offset ≤ content.length) :
    readEntry map fs path offset version =
      (Header.parse version (content.drop offset)).mapError .parseEntry := by
  obtain ⟨id, hlocate, hnode⟩ := FileSystem.contentOf_eq_ok_iff.mp hcontent
  simp only [readEntry, hlocate, Except.mapError, Outcome.ok_bind, hmap id content hnode,
    if_neg (Nat.not_lt.mpr hle)]

/-- A header can be made for the names without zeros that are shorter than the field, and a zero
in the name counts before its length. The header has the name and the length that it was made for.
It is what is read at its bytes, whatever is before and after them, in memory and in a file on a
system whose mappings show the contents of files. -/
theorem readEntry_of_make (version : Version) (name : String) (length : Int32) :
    ((∃ h, Header.make version name length = .ok h) ↔
      0 ∉ name.toByteArray.data ∧ name.utf8ByteSize < version.nameCapacity) ∧
    (Header.make version name length = .error .nameHasNul ↔ 0 ∈ name.toByteArray.data) ∧
    (Header.make version name length =
        .error (.nameTooLong name.utf8ByteSize (version.nameCapacity - 1)) ↔
      0 ∉ name.toByteArray.data ∧ version.nameCapacity ≤ name.utf8ByteSize) ∧
    ∀ h, Header.make version name length = .ok h →
      h.version = version ∧ h.name = name ∧ h.length = length ∧
      ∀ before after : Bytes,
        Header.parse version ((before ++ h.bytes ++ after).drop before.length) = .ok h ∧
        ∀ (map : Mapping) (fs : FileSystem) path, map.ShowsFiles fs →
          fs.contentOf path = .ok (before ++ h.bytes ++ after) →
          readEntry map fs path before.length version = .ok h := by
  rw [← mem_encodeString, ← length_encodeString]
  refine ⟨?_, ?_, ?_, fun h hmake => ?_⟩
  · constructor
    · rintro ⟨h, hmake⟩
      obtain ⟨hzero, hlt, -⟩ := Header.make_eq_ok_iff.mp hmake
      exact ⟨hzero, hlt⟩
    · rintro ⟨hzero, hlt⟩
      obtain ⟨hlength, -⟩ := Header.exists_fieldOfName hzero hlt
      exact ⟨⟨version, _, length, hlength⟩, Header.make_eq_ok_iff.mpr ⟨hzero, hlt, rfl, rfl, rfl⟩⟩
  · simp only [Header.make_eq_error_iff, reduceCtorEq, and_true, and_false, or_false]
  · simp only [Header.make_eq_error_iff, reduceCtorEq, and_true, and_false, false_or]
  · have hname := Header.name_of_make hmake
    obtain ⟨-, -, rfl, -, hlength⟩ := Header.make_eq_ok_iff.mp hmake
    refine ⟨rfl, hname, hlength, fun before after => ?_⟩
    -- the offset is where the bytes of the header begin
    have hparse : Header.parse h.version ((before ++ h.bytes ++ after).drop before.length) =
        .ok h := by
      rw [List.append_assoc, List.drop_left, Header.parse_bytes_append]
    refine ⟨hparse, fun map fs path hmap hcontent => ?_⟩
    have hle : before.length ≤ (before ++ h.bytes ++ after).length := by
      rw [List.append_assoc, List.length_append]
      exact Nat.le_add_right _ _
    rw [readEntry_of_contentOf _ hmap hcontent hle, hparse]
    rfl

/-- A name that just fits into the field of 32 bytes: fifteen characters of two bytes and one of
one byte. -/
def longestName : String := "ééééééééééééééé!"

/-- A file system with one file. -/
def archive (content : Bytes) : FileSystem where
  nodes := #[.directory 0 [([0x61], 1)], .regular content]
  working := 0

/-- The header of the longest name and a negative length, between other bytes. -/
theorem readEntry_of_make_longestName :
    ∃ h, Header.make .v2 longestName (-2) = .ok h ∧ h.name = longestName ∧ h.length = -2 ∧
      readEntry .regularFiles (archive ([0xCC, 0] ++ h.bytes ++ [0xFF])) ⟨[0x61]⟩ 2 .v2 =
        .ok h := by
  obtain ⟨hmade, -, -, hback⟩ := readEntry_of_make .v2 longestName (-2)
  obtain ⟨h, hmake⟩ := hmade.mpr ⟨by decide +kernel, by decide +kernel⟩
  obtain ⟨-, hname, hlength, hread⟩ := hback h hmake
  exact ⟨h, hmake, hname, hlength, (hread [0xCC, 0] [0xFF]).2 .regularFiles (archive _) ⟨[0x61]⟩
    (Mapping.showsFiles_regularFiles _) rfl⟩

end Pak

end VirtualFiles
